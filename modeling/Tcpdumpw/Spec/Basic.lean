import Mathlib.Data.BitVec

/-!
# The data of `tcpdumpw`

The values `tcpdumpw/main.go` passes around: UUIDs (`uuid.UUID`, 16 bytes, big-endian),
durations (`time.Duration`, a signed 64-bit count of nanoseconds), the capture
configuration of an interface (`pcap.PcapConfig`), tasks (`pcapTask`), jobs
(`tcpdumpJob`) and log entries (`jLogEntry`).

A log message is kept as the format string of the source and its arguments (`Msg`),
one constructor per `jlog` call site; a Go `error` is its text.
-/

namespace Tcpdumpw

/-! ## UUIDs -/

/-- `uuid.UUID`: 16 bytes, byte `0` most significant. -/
abbrev UUID := BitVec 128

/-- `uuid.Nil`. -/
def UUID.nil : UUID := 0

/-- The bits `uuid.NewRandom` forces: version 4 in byte 6, variant `10` in byte 8. -/
def versionBits : UUID := 0x40 <<< 72 ||| 0x80 <<< 56

/-- The bits of bytes 6 and 8 that `uuid.NewRandom` overwrites. -/
def versionMask : UUID := 0xf0 <<< 72 ||| 0xc0 <<< 56

/-- `uuid.New()` on the 16 random bytes `r` it reads:
`u[6] = (u[6] & 0x0f) | 0x40; u[8] = (u[8] & 0x3f) | 0x80`. -/
def newRandom (r : UUID) : UUID := (r &&& ~~~versionMask) ||| versionBits

/-! ## Durations -/

/-- `time.Duration`: nanoseconds in a signed 64-bit integer. -/
abbrev Duration := BitVec 64

/-- `time.Second`. -/
def second : Duration := 1000000000

/-- A point in time as the scheduler reports it (`LastRun`, `NextRun`). -/
abbrev Time := ℕ

/-! ## Capture configuration and tasks -/

/-- `pcap.PcapConfig`, the fields `newPcapConfig` and `createTasks` set. -/
structure PcapConfig where
  promisc : Bool
  iface : String
  snaplen : ℤ
  tsType : String
  format : String
  output : String
  extension : String
  filter : String
  interval : ℤ
  ordered : Bool
  deriving DecidableEq, Repr

/-- `newPcapConfig`. -/
def newPcapConfig (iface format output extension filter : String) (snaplen interval : ℤ) :
    PcapConfig :=
  { promisc := true, iface, snaplen, tsType := "", format, output, extension, filter, interval,
    ordered := false }

/-- `pcapTask`: an engine and its writers. A writer is an interface value of Go, so it may be
`nil` (`none`). -/
structure PcapTask (E W : Type) where
  engine : E
  writers : List (Option W)
  deriving DecidableEq, Repr

/-- `tcpdumpJob`. The gocron handle `j` and the context `ctx` are not kept: the process has
one top-level context, and what the code reads from `j` is passed by the scheduler steps. -/
structure TcpdumpJob (E W : Type) where
  xid : UUID
  jid : UUID
  name : String
  tags : List String
  tasks : List (PcapTask E W)
  deriving DecidableEq, Repr

/-- `emptyTcpdumpJob = tcpdumpJob{Jid: uuid.Nil.String()}`. -/
def emptyTcpdumpJob {E W : Type} : TcpdumpJob E W :=
  { xid := UUID.nil, jid := UUID.nil, name := "", tags := [], tasks := [] }

/-! ## Flags -/

/-- The flags `createTasks` reads; the `args` entry prints them too. -/
structure Flags where
  timezone : String
  directory : String
  extension : String
  filter : String
  snaplen : ℤ
  interval : ℤ
  tcpdump : Bool
  jsondump : Bool
  jsonlog : Bool
  ordered : Bool
  deriving DecidableEq, Repr

/-! ## Log entries -/

/-- `jLogLevel`. -/
inductive JLogLevel where
  | info
  | error
  | fatal
  deriving DecidableEq, Repr

/-- An OS signal `signal.Notify` is asked for: `os.Interrupt` (`SIGINT`) or `SIGTERM`. -/
inductive Sig where
  | interrupt
  | term
  deriving DecidableEq, Repr

/-- The messages of `jlog`'s call sites, each with the format string it renders. -/
inductive Msg where
  /-- `"args[use_cron:%t|cron_exp:%s|timezone:%s|timeout:%d|extension:%s|directory:%s|`
  `snaplen:%d|filter:%s|interval:%d|tcpdump:%t|jsondump:%t|jsonlog:%t|ordered:%t]"` -/
  | args (useCron : Bool) (cronExp : String) (duration : ℤ) (flags : Flags)
  /-- `"invalid iface: %s (%s)"` -/
  | invalidIface (iface err : String)
  /-- `"configuring PCAP for iface: %s"` -/
  | configuring (ifaceAndIndex : String)
  /-- `"configured 'tcpdump' for iface: %s"` -/
  | configuredTcpdump (ifaceAndIndex : String)
  /-- `"tcpdump task creation failed: %s (%s)"` -/
  | tcpdumpFailed (ifaceAndIndex err : String)
  /-- `"jsondump task creation failed: %s (%s)"` -/
  | jsondumpFailed (ifaceAndIndex err : String)
  /-- `"jsondump file writer creation failed: %s (%s)"` -/
  | fileWriterFailed (ifaceAndIndex err : String)
  /-- `"jsondump stdout writer creation failed: %s (%s)"` -/
  | stdoutWriterFailed (ifaceAndIndex err : String)
  /-- `"configured 'jsondump' for iface: %s"` -/
  | configuredJsondump (ifaceAndIndex : String)
  /-- `"no PCAP tasks available"` -/
  | noTasks
  /-- `"parsed timeout: %v"` -/
  | parsedTimeout (timeout : Duration)
  /-- `"could not load timezone '%s': %v"` -/
  | timezoneFailed (timezone err : String)
  /-- `"parsed timezone: %v"` -/
  | parsedTimezone (location : String)
  /-- `"failed to create scheduler: %v"` -/
  | schedulerFailed (err : String)
  /-- `"failed to create scheduled job: %v"` -/
  | jobFailed (err : String)
  /-- `"scheduled job"` -/
  | scheduledJob
  /-- `"next execution: %v"` -/
  | nextExecution (nextRun : Time)
  /-- `"signaled: %v"` -/
  | signaled (sig : Sig)
  /-- `"execution started ( last execution: %v )"` -/
  | executionStarted (lastRun : Time)
  /-- `"execution complete"` -/
  | executionComplete
  /-- `"job[id:%s] not found"` -/
  | jobNotFound (jobID : UUID)
  deriving DecidableEq, Repr

/-- The process-wide values `jlog` stamps on every entry: `APP_SIDECAR` and `PROC_NAME`. -/
structure ProcEnv where
  sidecar : String
  module : String
  deriving DecidableEq, Repr

/-- `jLogEntry` as `json.Marshal` writes it: the job's `xid`, `jid` and `name` (its other
fields are `json:"-"`) and its tags at top level. -/
structure JLogEntry where
  severity : JLogLevel
  message : Msg
  sidecar : String
  module : String
  xid : UUID
  jid : UUID
  name : String
  tags : List String
  deriving DecidableEq, Repr

/-- `jlog`: a copy of the job with `Xid` set to the current execution id `xid`. -/
def jlog {E W : Type} (env : ProcEnv) (xid : UUID) (severity : JLogLevel) (job : TcpdumpJob E W)
    (message : Msg) : JLogEntry :=
  { severity, message, sidecar := env.sidecar, module := env.module, xid, jid := job.jid,
    name := job.name, tags := job.tags }

@[simp] theorem jlog_xid {E W : Type} (env : ProcEnv) (xid : UUID) (sev : JLogLevel)
    (job : TcpdumpJob E W) (m : Msg) : (jlog env xid sev job m).xid = xid := rfl

@[simp] theorem jlog_message {E W : Type} (env : ProcEnv) (xid : UUID) (sev : JLogLevel)
    (job : TcpdumpJob E W) (m : Msg) : (jlog env xid sev job m).message = m := rfl

end Tcpdumpw
