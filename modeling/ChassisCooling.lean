import ChassisCooling.Main
import ChassisCooling.Proofs.Bystanders
import ChassisCooling.Proofs.Cards
import ChassisCooling.Proofs.CommitPoint
import ChassisCooling.Proofs.Cooldown
import ChassisCooling.Proofs.Courses
import ChassisCooling.Proofs.Custody
import ChassisCooling.Proofs.Dates
import ChassisCooling.Proofs.Degrees
import ChassisCooling.Proofs.Delivery
import ChassisCooling.Proofs.Documents
import ChassisCooling.Proofs.Doubles
import ChassisCooling.Proofs.Endurance
import ChassisCooling.Proofs.Fields
import ChassisCooling.Proofs.Floors
import ChassisCooling.Proofs.Framing
import ChassisCooling.Proofs.FreeData
import ChassisCooling.Proofs.Heat
import ChassisCooling.Proofs.IdleSpeed
import ChassisCooling.Proofs.Indifference
import ChassisCooling.Proofs.Influence
import ChassisCooling.Proofs.Layout
import ChassisCooling.Proofs.Ledger
import ChassisCooling.Proofs.Memory
import ChassisCooling.Proofs.Numerals
import ChassisCooling.Proofs.Occupancy
import ChassisCooling.Proofs.Omissions
import ChassisCooling.Proofs.OpenFiles
import ChassisCooling.Proofs.Overrides
import ChassisCooling.Proofs.Overview
import ChassisCooling.Proofs.Parents
import ChassisCooling.Proofs.Ramp
import ChassisCooling.Proofs.Recording
import ChassisCooling.Proofs.Records
import ChassisCooling.Proofs.Remnants
import ChassisCooling.Proofs.Requests
import ChassisCooling.Proofs.Reread
import ChassisCooling.Proofs.Responses
import ChassisCooling.Proofs.Retention
import ChassisCooling.Proofs.Rows
import ChassisCooling.Proofs.Saving
import ChassisCooling.Proofs.Schedule
import ChassisCooling.Proofs.Secrecy
import ChassisCooling.Proofs.Sessions
import ChassisCooling.Proofs.Setbacks
import ChassisCooling.Proofs.SpeedRange
import ChassisCooling.Proofs.Staleness
import ChassisCooling.Proofs.StoreAsList
import ChassisCooling.Proofs.Times
import ChassisCooling.Proofs.Utf8
import ChassisCooling.Proofs.Window
