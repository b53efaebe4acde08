import Provisioning.Document.Basic
import Provisioning.Host
import Provisioning.Log.Filter
import Provisioning.Proofs.Race.Run
import Provisioning.Proofs.Race.Exclusion
import Provisioning.Proofs.Race.Account
import Provisioning.Proofs.Race.ComputeOnce
import Provisioning.Proofs.Race.Shadow
import Provisioning.Proofs.Race.Supply
import Provisioning.Proofs.Race.Linearization
import Provisioning.Proofs.Instantiation
import Provisioning.Proofs.Race.Provenance
import Provisioning.Proofs.Keyed
import Provisioning.Proofs.Text.Utf8
import Provisioning.Proofs.Record
import Provisioning.Proofs.Schema
import Provisioning.Proofs.Schema.Place
import Provisioning.Proofs.Document.Spelling
import Provisioning.Proofs.Document.Reading
import Provisioning.Proofs.Document.Conformity
import Provisioning.Proofs.Store.Ordered
import Provisioning.Proofs.Json.RoundTrip
import Provisioning.Proofs.Document.RoundTrip
import Provisioning.Proofs.Course.Basic
import Provisioning.Proofs.Course.Lifecycle
import Provisioning.Proofs.Course.Steady
import Provisioning.Proofs.Course.Thinning
import Provisioning.Proofs.Course.Hooks
import Provisioning.Proofs.Store.Reading
import Provisioning.Proofs.Document.Finding
import Provisioning.Proofs.Settings
import Provisioning.Proofs.Race.Service
import Provisioning.Proofs.Race.Failures
import Provisioning.Proofs.Race.Permanence
import Provisioning.Proofs.Stages
import Provisioning.Proofs.Document.Idle
import Provisioning.Proofs.Course.Roles
import Provisioning.Proofs.Race.Progress
import Provisioning.Proofs.Registry
import Provisioning.Proofs.Document.Denotation
import Provisioning.Proofs.Document.Report
import Provisioning.Proofs.Path
import Provisioning.Proofs.Settings.Resolution
import Provisioning.Proofs.Context
import Provisioning.Proofs.Path.FileName
import Provisioning.Proofs.Text.Lowercase
import Provisioning.Proofs.Format
import Provisioning.Proofs.FactoryError
import Provisioning.Proofs.Log.Noting
import Provisioning.Proofs.Course.Logging
import Provisioning.Proofs.Deployment
import Provisioning.Proofs.Client.Basic
import Provisioning.Proofs.Client.Storage
import Provisioning.Proofs.Reports
import Provisioning.Proofs.Client.Reports
import Provisioning.Proofs.Client.Filtering
