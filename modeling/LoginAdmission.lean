import LoginAdmission.Proofs.Counting.Admission
import LoginAdmission.Proofs.Counting.Exchange
import LoginAdmission.Proofs.Counting.FreshStart
import LoginAdmission.Proofs.Counting.SingleReset
import LoginAdmission.Proofs.Lists.Database
import LoginAdmission.Proofs.Lists.Verdicts
import LoginAdmission.Proofs.Passage
import LoginAdmission.Proofs.Provenance.Sessions
import LoginAdmission.Proofs.Secrecy.Sessions
import LoginAdmission.Proofs.Telemetry
import LoginAdmission.Proofs.Timers.Flushes
import LoginAdmission.Proofs.Wire.RoundTrip
import LoginAdmission.Proofs.Wire.Unambiguous
import LoginAdmission.Session
import LoginAdmission.Proofs.Settings
import LoginAdmission.Proofs.Strictness
import LoginAdmission.Proofs.BoundedLogs
import LoginAdmission.Proofs.Address.Intervals
import LoginAdmission.Proofs.Address.Spelling
import LoginAdmission.Proofs.Consultation
import LoginAdmission.Proofs.Events.Announced
import LoginAdmission.Proofs.Events.Replay
import LoginAdmission.Proofs.Events.Log
import LoginAdmission.Proofs.Failures
import LoginAdmission.Proofs.Commands.SubnetLines
import LoginAdmission.Proofs.Commands.Typing
