import Tcpdumpw.Spec.Basic
import Tcpdumpw.Spec.Regexp

/-!
# `createTasks`

For each interface the matcher selects, `createTasks` resolves it with
`net.InterfaceByName` and builds up to two tasks: the raw `tcpdump` task, and the JSON task
whose writers are a rotated file (`jsondump`) and standard output (`jsonlog`).

The calls to the outside world are not modelled: a `DeviceRun` holds, for one interface,
what each call returns when `createTasks` makes it, as a function of the arguments it is
given. So a theorem over all `DeviceRun`s holds for every outcome of every call on every
interface. The log lines are kept as the level and message `jlog` gets; every one of them
is stamped with `emptyTcpdumpJob`.
-/

namespace Tcpdumpw

/-- `net.Interface`, the fields `createTasks` reads. -/
structure NetIface where
  index : ℤ
  name : String
  deriving DecidableEq, Repr

/-- What the calls of one iteration of `createTasks`' loop return. -/
structure DeviceRun (E W : Type) where
  /-- The name `pcap.FindDevicesByRegex` listed. -/
  iface : String
  interfaceByName : Except String NetIface
  newTcpdump : PcapConfig → Except String E
  newPcap : PcapConfig → Except String E
  /-- `pcap.NewPcapWriter(&output, &extension, timezone, interval)`. -/
  newPcapWriter : String → String → String → ℤ → Except String W
  newStdoutPcapWriter : Except String W

/-- The level and message of a `jlog(_, &emptyTcpdumpJob, _)` call. -/
abbrev LogLine := JLogLevel × Msg

variable {E W : Type}

/-- `fmt.Sprintf("%d/%s", netIface.Index, iface)`. -/
def ifaceAndIndex (ni : NetIface) : String := toString ni.index ++ "/" ++ ni.name

/-- The rotated output path: `"%s/part__%d_%s__%%Y%%m%%d_%%H%%M%%S"`. -/
def outputPath (directory : String) (ni : NetIface) : String :=
  directory ++ "/part__" ++ toString ni.index ++ "_" ++ ni.name ++ "__%Y%m%d_%H%M%S"

/-- `tcpdumpCfg`. -/
def tcpdumpCfg (f : Flags) (ni : NetIface) : PcapConfig :=
  newPcapConfig ni.name "pcap" (outputPath f.directory ni) f.extension f.filter f.snaplen f.interval

/-- `jsondumpCfg`, with `Ordered` set as the JSON setup sets it. -/
def jsondumpCfg (f : Flags) (ni : NetIface) : PcapConfig :=
  { newPcapConfig ni.name "json" (outputPath f.directory ni) "json" f.filter f.snaplen f.interval with
    ordered := f.ordered }

/-- The raw task: `pcap.NewTcpdump(tcpdumpCfg)` when `tcpdump` is set, else the error
`"disabled"`; a task with no writers on success. -/
def tcpdumpTask (f : Flags) (d : DeviceRun E W) (ni : NetIface) : List (PcapTask E W) × List LogLine :=
  let engineErr : Except String E := if f.tcpdump then d.newTcpdump (tcpdumpCfg f ni) else .error "disabled"
  match engineErr with
  | .ok e => ([⟨e, []⟩], [(.info, .configuredTcpdump (ifaceAndIndex ni))])
  | .error err => ([], [(.error, .tcpdumpFailed (ifaceAndIndex ni) err)])

/-- The JSON setup, from `pcap.NewPcap(jsondumpCfg)` on (lines 239-273). The file writer is
`nil` unless `jsondump` is set. -/
def jsondumpTask (f : Flags) (d : DeviceRun E W) (ni : NetIface) : List (PcapTask E W) × List LogLine :=
  match d.newPcap (jsondumpCfg f ni) with
  | .error err => ([], [(.error, .jsondumpFailed (ifaceAndIndex ni) err)])
  | .ok engine =>
    let (writerErr, jsondumpWriter) : Option String × Option W :=
      if f.jsondump then
        match d.newPcapWriter (outputPath f.directory ni) "json" f.timezone f.interval with
        | .ok w => (none, some w)
        | .error e => (some e, none)
      else (none, none)
    let (pcapWriters, fileLog) : List (Option W) × List LogLine :=
      match writerErr with
      | some e => ([], [(.error, .fileWriterFailed (ifaceAndIndex ni) e)])
      | none => ([jsondumpWriter], [])
    if !f.jsonlog && writerErr.isNone then ([⟨engine, pcapWriters⟩], fileLog) else
    match d.newStdoutPcapWriter with
    | .error e => ([], fileLog ++ [(.error, .stdoutWriterFailed (ifaceAndIndex ni) e)])
    | .ok w => ([⟨engine, pcapWriters ++ [some w]⟩], fileLog ++ [(.info, .configuredJsondump (ifaceAndIndex ni))])

/-- One iteration of the loop: what the device adds to the tasks and to the log. -/
def configureIface (f : Flags) (d : DeviceRun E W) : List (PcapTask E W) × List LogLine :=
  match d.interfaceByName with
  | .error err => ([], [(.error, .invalidIface d.iface err)])
  | .ok ni =>
    let raw := tcpdumpTask f d ni
    let head := (.info, .configuring (ifaceAndIndex ni)) :: raw.2
    -- line 230, under the comment "skip JSON setup if no form fo JSON support is enabled"
    if !f.jsondump || !f.jsonlog then (raw.1, head) else
    let json := jsondumpTask f d ni
    (raw.1 ++ json.1, head ++ json.2)

/-- The loop over the devices, appending to `tasks` and to the log. -/
def configureAll (f : Flags) (devices : List (DeviceRun E W)) : List (PcapTask E W) × List LogLine :=
  devices.foldl (fun acc d => (acc.1 ++ (configureIface f d).1, acc.2 ++ (configureIface f d).2)) ([], [])

/-- `pcap.FindDevicesByRegex`, modelled from the spec: the host's interfaces whose names the
matcher selects, in the host's order. -/
def findDevicesByRegex (r : Regexp) (host : List (DeviceRun E W)) : List (DeviceRun E W) :=
  host.filter fun d => r.matchString d.iface.data

/-- `createTasks`: compile the matcher, list the interfaces it selects, and run the loop over
them. The error is `.invalid code` where `regexp.MustCompile` panics with `code`, and
`.unsupported` where the pattern leaves the modelled fragment of `regexp`. -/
def createTasks (f : Flags) (ifacePattern : String) (host : List (DeviceRun E W)) :
    Except ParseError (List (PcapTask E W) × List LogLine) :=
  match Regexp.compile (ifaceRegexp ifacePattern) with
  | .ok r => .ok (configureAll f (findDevicesByRegex r host))
  | .error e => .error e

end Tcpdumpw
