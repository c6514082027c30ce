import AdmissionControl.Main
import AdmissionControl.Proofs.Allowlist
import AdmissionControl.Proofs.Reload.Pass
import AdmissionControl.Proofs.Admission
import AdmissionControl.Proofs.FileSystem
import AdmissionControl.Proofs.Reload.Restart
import AdmissionControl.Proofs.Service.Guard
import AdmissionControl.Proofs.Reload.Effect
import AdmissionControl.Proofs.Service.Health
import AdmissionControl.Proofs.Service.FailClosed
import AdmissionControl.Proofs.Allowlist.Format
import AdmissionControl.Proofs.Reload.History
import AdmissionControl.Proofs.Reload.Lifecycle
import AdmissionControl.Proofs.Service.Surfaces
import AdmissionControl.Proofs.Session
import AdmissionControl.Proofs.Identifier.Canonical
import AdmissionControl.Proofs.Allowlist.Listing
import AdmissionControl.Proofs.Settings.Layers
import AdmissionControl.Proofs.Service.Disclosure
import AdmissionControl.Proofs.Decision
import AdmissionControl.Proofs.Admission.Audit
import AdmissionControl.Proofs.Allowlist.Accounting
import AdmissionControl.Proofs.Service.Failure
import AdmissionControl.Proofs.FileSystem.Path
import AdmissionControl.Proofs.Reload.Filter
import AdmissionControl.Proofs.FileSystem.Walk
import AdmissionControl.Proofs.Reload.Watched
import AdmissionControl.Proofs.Settings.Escape
