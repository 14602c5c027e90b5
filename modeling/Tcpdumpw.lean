import Tcpdumpw.Spec.Basic
import Tcpdumpw.Spec.Regexp
import Tcpdumpw.Spec.CreateTasks
import Tcpdumpw.Spec.Start
import Tcpdumpw.Spec.Process
import Tcpdumpw.Proof.Regexp
import Tcpdumpw.Proof.CreateTasks
import Tcpdumpw.Proof.Metachars
import Tcpdumpw.Proof.Start
import Tcpdumpw.Proof.Process
import Tcpdumpw.Proof.Timeout
import Tcpdumpw.Proof.Termination
import Tcpdumpw.Proof.Executions
import Tcpdumpw.Proof.Lifecycle
import Tcpdumpw.Proof.Shutdown
import Tcpdumpw.Proof.Timezone
