import VolumeExport.Json.Reader
import VolumeExport.Main
import VolumeExport.Proofs.Alongside
import VolumeExport.Proofs.Backing.Advance
import VolumeExport.Proofs.Backing.Clearance
import VolumeExport.Proofs.Backing.Deadline
import VolumeExport.Proofs.Backing.Joint
import VolumeExport.Proofs.Backing.Retreat
import VolumeExport.Proofs.Collection
import VolumeExport.Proofs.Confinement
import VolumeExport.Proofs.Cutting
import VolumeExport.Proofs.Departure
import VolumeExport.Proofs.Durable
import VolumeExport.Proofs.Environment
import VolumeExport.Proofs.Fulfilment
import VolumeExport.Proofs.Grammar
import VolumeExport.Proofs.Grounds
import VolumeExport.Proofs.Isolation
import VolumeExport.Proofs.Life
import VolumeExport.Proofs.Misconfiguration
import VolumeExport.Proofs.Mode
import VolumeExport.Proofs.Modification
import VolumeExport.Proofs.Placement
import VolumeExport.Proofs.Precedence
import VolumeExport.Proofs.Race
import VolumeExport.Proofs.Recoding
import VolumeExport.Proofs.Recurrence
import VolumeExport.Proofs.Rejection
import VolumeExport.Proofs.Retrial
import VolumeExport.Proofs.Sharing
import VolumeExport.Proofs.Spelling
import VolumeExport.Proofs.Sweep
import VolumeExport.Scenario.Exchange
import VolumeExport.Tracker
