import Tcpdumpw.Spec.CreateTasks
import Tcpdumpw.Proof.Regexp

/-!
# What `createTasks` builds

* `configureAll_eq_specContribution`: when `jsondump` and `jsonlog` agree, each device
  contributes what the spec describes (`specContribution`), in device order.
* `configureAll_jsondumpOnly`: when only `jsondump` is set, the guard of line 230
  (`!*jsondump || !*jsonlog`) skips the JSON setup, and a device gets no JSON task.
* `configureAll_writers_ne_nil`: no task gets a `nil` writer.
* `createTasks_selects`: for a pattern read as literals, `createTasks` does not panic and
  runs its loop over exactly the host's interfaces of the documented form.
-/

namespace Tcpdumpw

variable {E W : Type}

theorem foldl_configureIface (f : Flags) (ds : List (DeviceRun E W)) (a : List (PcapTask E W))
    (b : List LogLine) :
    ds.foldl (fun acc d => (acc.1 ++ (configureIface f d).1, acc.2 ++ (configureIface f d).2))
      (a, b) = (a ++ ds.flatMap fun d => (configureIface f d).1,
        b ++ ds.flatMap fun d => (configureIface f d).2) := by
  induction ds generalizing a b with
  | nil => simp
  | cons d ds ih => simp [ih]

theorem configureAll_fst (f : Flags) (ds : List (DeviceRun E W)) :
    (configureAll f ds).1 = ds.flatMap fun d => (configureIface f d).1 := by
  simp [configureAll, foldl_configureIface]

/-- The loop returns, in device order, what each device contributes. -/
theorem configureAll_eq_flatMap (f : Flags) (ds : List (DeviceRun E W)) :
    configureAll f ds = (ds.flatMap fun d => (configureIface f d).1,
      ds.flatMap fun d => (configureIface f d).2) := by
  simpa using foldl_configureIface f ds [] []

/-! ## The contribution the spec describes -/

/-- The raw task the spec describes: there iff `tcpdump` is set and `NewTcpdump` succeeds. -/
def specRaw (f : Flags) (d : DeviceRun E W) (ni : NetIface) : List (PcapTask E W) :=
  match f.tcpdump, d.newTcpdump (tcpdumpCfg f ni) with
  | true, .ok e => [⟨e, []⟩]
  | _, _ => []

/-- The JSON writers the spec describes: the file writer if `jsondump` is set and it was
built, then standard output's writer if `jsonlog` is set; `none` when `jsonlog` is set and
standard output's writer failed. -/
def specWriters (f : Flags) (d : DeviceRun E W) (ni : NetIface) : Option (List (Option W)) :=
  let file : List (Option W) :=
    match f.jsondump, d.newPcapWriter (outputPath f.directory ni) "json" f.timezone f.interval with
    | true, .ok w => [some w]
    | _, _ => []
  if f.jsonlog then
    match d.newStdoutPcapWriter with
    | .ok w => some (file ++ [some w])
    | .error _ => none
  else some file

/-- The JSON task the spec describes: there iff `jsondump` or `jsonlog` is set, `NewPcap`
succeeds, standard output's writer succeeds when `jsonlog` is set, and some writer was built. -/
def specJson (f : Flags) (d : DeviceRun E W) (ni : NetIface) : List (PcapTask E W) :=
  match f.jsondump || f.jsonlog, d.newPcap (jsondumpCfg f ni), specWriters f d ni with
  | true, .ok e, some (w :: ws) => [⟨e, w :: ws⟩]
  | _, _, _ => []

/-- What one device contributes, as the spec describes it: nothing when it does not
resolve, else its raw task then its JSON task. -/
def specContribution (f : Flags) (d : DeviceRun E W) : List (PcapTask E W) :=
  match d.interfaceByName with
  | .error _ => []
  | .ok ni => specRaw f d ni ++ specJson f d ni

theorem tcpdumpTask_fst (f : Flags) (d : DeviceRun E W) (ni : NetIface) :
    (tcpdumpTask f d ni).1 = specRaw f d ni := by
  unfold tcpdumpTask specRaw
  cases f.tcpdump <;> cases d.newTcpdump (tcpdumpCfg f ni) <;> rfl

theorem jsondumpTask_fst (f : Flags) (d : DeviceRun E W) (ni : NetIface) (hd : f.jsondump = true)
    (hl : f.jsonlog = true) : (jsondumpTask f d ni).1 = specJson f d ni := by
  unfold jsondumpTask specJson specWriters
  simp only [hd, hl, Bool.or_self]
  cases d.newPcap (jsondumpCfg f ni) <;>
    cases d.newPcapWriter (outputPath f.directory ni) "json" f.timezone f.interval <;>
    cases d.newStdoutPcapWriter <;> rfl

/-- **With `jsondump = jsonlog`, a device contributes what the spec describes.** -/
theorem configureIface_eq_specContribution (f : Flags) (d : DeviceRun E W)
    (h : f.jsondump = f.jsonlog) : (configureIface f d).1 = specContribution f d := by
  unfold configureIface specContribution
  cases d.interfaceByName with
  | error => rfl
  | ok ni =>
    cases hl : f.jsonlog
    · have hd : f.jsondump = false := h.trans hl
      have hj : specJson f d ni = [] := by simp [specJson, hd, hl]
      simp [hd, tcpdumpTask_fst, hj]
    · have hd : f.jsondump = true := h.trans hl
      simp [hd, tcpdumpTask_fst, jsondumpTask_fst f d ni hd hl]

theorem configureAll_eq_specContribution (f : Flags) (ds : List (DeviceRun E W))
    (h : f.jsondump = f.jsonlog) : (configureAll f ds).1 = ds.flatMap (specContribution f) := by
  rw [configureAll_fst]
  exact List.flatMap_congr fun d _ => configureIface_eq_specContribution f d h


/-- The flags of the failing input: `-tcpdump=false -jsondump=true -jsonlog=false`. -/
def jsondumpOnly : Flags :=
  { timezone := "UTC", directory := "/pcap", extension := "pcap", filter := "", snaplen := 0,
    interval := 60, tcpdump := false, jsondump := true, jsonlog := false, ordered := false }

/-- An interface `eth0` on which every call succeeds; engine and writer are `()`. -/
def eth0 : DeviceRun Unit Unit :=
  { iface := "eth0", interfaceByName := .ok ⟨2, "eth0"⟩, newTcpdump := fun _ => .ok (),
    newPcap := fun _ => .ok (), newPcapWriter := fun _ _ _ _ => .ok (),
    newStdoutPcapWriter := .ok () }

/-- At the failing input the loop returns no task, where the spec asks for a JSON task
writing to the file. -/
theorem configureAll_jsondumpOnly :
    (configureAll jsondumpOnly [eth0]).1 = [] ∧ specContribution jsondumpOnly eth0 = [⟨(), [some ()]⟩] :=
  ⟨rfl, rfl⟩

theorem configureAll_eq_specContribution_eth0 :
    { jsondumpOnly with jsonlog := true }.jsondump = { jsondumpOnly with jsonlog := true }.jsonlog ∧
      (configureAll { jsondumpOnly with jsonlog := true } [eth0]).1 =
        [eth0].flatMap (specContribution { jsondumpOnly with jsonlog := true }) :=
  ⟨rfl, configureAll_eq_specContribution _ _ rfl⟩

/-! ## Writers -/

theorem jsondumpTask_writers (f : Flags) (d : DeviceRun E W) (ni : NetIface) (hd : f.jsondump = true) :
    ∀ t ∈ (jsondumpTask f d ni).1, none ∉ t.writers := by
  unfold jsondumpTask
  simp only [hd, if_true]
  cases d.newPcap (jsondumpCfg f ni) <;>
    cases d.newPcapWriter (outputPath f.directory ni) "json" f.timezone f.interval <;>
    cases d.newStdoutPcapWriter <;> cases f.jsonlog <;> simp

/-- **No task gets a `nil` writer**: the JSON setup, where the file writer stays `nil` when
`jsondump` is off, only runs when `jsondump` is on. -/
theorem configureAll_writers_ne_nil (f : Flags) (ds : List (DeviceRun E W)) :
    ∀ t ∈ (configureAll f ds).1, none ∉ t.writers := by
  rw [configureAll_fst]
  simp only [List.mem_flatMap]
  rintro t ⟨d, -, ht⟩
  have hraw : ∀ ni, ∀ t ∈ (tcpdumpTask f d ni).1, t.writers = [] := by
    intro ni
    unfold tcpdumpTask
    cases f.tcpdump <;> cases d.newTcpdump (tcpdumpCfg f ni) <;> simp
  unfold configureIface at ht
  split at ht
  · simp at ht
  · rename_i ni _
    by_cases hg : (!f.jsondump || !f.jsonlog) = true
    · simp only [hg, if_true] at ht
      simp [hraw ni t ht]
    · simp only [hg, if_false] at ht
      rcases List.mem_append.1 ht with h | h
      · simp [hraw ni t h]
      · exact jsondumpTask_writers f d ni (by simp_all) t h

theorem configureAll_writers_ne_nil_eth0 :
    (configureAll { jsondumpOnly with jsonlog := true } [eth0]).1 = [⟨(), [some (), some ()]⟩] ∧
      ∀ t ∈ (configureAll { jsondumpOnly with jsonlog := true } [eth0]).1, none ∉ t.writers :=
  ⟨rfl, configureAll_writers_ne_nil _ _⟩

/-! ## The log -/

/-- The messages logged before `createTasks` returns: the `args` entry and `createTasks`' own. -/
def Msg.isSetup : Msg → Bool
  | .args .. | .invalidIface .. | .configuring _ | .configuredTcpdump _ | .tcpdumpFailed ..
  | .jsondumpFailed .. | .fileWriterFailed .. | .stdoutWriterFailed .. | .configuredJsondump _ => true
  | _ => false

theorem tcpdumpTask_isSetup (f : Flags) (d : DeviceRun E W) (ni : NetIface) :
    ∀ l ∈ (tcpdumpTask f d ni).2, l.2.isSetup = true := by
  unfold tcpdumpTask
  cases f.tcpdump <;> cases d.newTcpdump (tcpdumpCfg f ni) <;> simp [Msg.isSetup]

theorem jsondumpTask_isSetup (f : Flags) (d : DeviceRun E W) (ni : NetIface) :
    ∀ l ∈ (jsondumpTask f d ni).2, l.2.isSetup = true := by
  unfold jsondumpTask
  cases d.newPcap (jsondumpCfg f ni) <;>
    cases d.newPcapWriter (outputPath f.directory ni) "json" f.timezone f.interval <;>
    cases d.newStdoutPcapWriter <;> cases f.jsondump <;> cases f.jsonlog <;> simp [Msg.isSetup]

theorem configureIface_isSetup (f : Flags) (d : DeviceRun E W) :
    ∀ l ∈ (configureIface f d).2, l.2.isSetup = true := by
  unfold configureIface
  split
  · simp [Msg.isSetup]
  · rename_i ni _
    intro l hl
    split at hl
    · rcases List.mem_cons.1 hl with rfl | hl
      · rfl
      · exact tcpdumpTask_isSetup f d ni l hl
    · rcases List.mem_append.1 hl with hl | hl
      · rcases List.mem_cons.1 hl with rfl | hl
        · rfl
        · exact tcpdumpTask_isSetup f d ni l hl
      · exact jsondumpTask_isSetup f d ni l hl

/-- Every entry `createTasks` logs is a setup message. -/
theorem createTasks_isSetup {f : Flags} {p : String} {host : List (DeviceRun E W)}
    {ts : List (PcapTask E W)} {log : List LogLine} (h : createTasks f p host = .ok (ts, log)) :
    ∀ l ∈ log, l.2.isSetup = true := by
  unfold createTasks at h
  split at h
  · rename_i r _
    have hlog : log = (configureAll f (findDevicesByRegex r host)).2 := by
      rw [Except.ok.inj h]
    rw [hlog, configureAll_eq_flatMap]
    simp only [List.mem_flatMap]
    rintro l ⟨d, -, hl⟩
    exact configureIface_isSetup f d l hl
  · cases h

/-! ## End to end -/

/-- **`createTasks` on a pattern read as literals.** For a pattern with no `syntaxChar` and no
repetition count, the matcher compiles, and the loop runs over the host's interfaces whose
names have the documented form, in the host's order. -/
theorem createTasks_selects (f : Flags) (p : String) (hp : literalOnly p.data = true)
    (host : List (DeviceRun E W)) :
    ∃ sel : DeviceRun E W → Bool, (∀ d, sel d = true ↔ IfaceForm p d.iface) ∧
      createTasks f p host = .ok (configureAll f (host.filter sel)) := by
  refine ⟨fun d => (Regexp.ifaceTree p.data).matchString d.iface.data,
    fun d => matchString_ifaceTree_iff p d.iface, ?_⟩
  unfold createTasks
  rw [Regexp.compile_ifaceRegexp hp]
  rfl

theorem createTasks_selects_eth :
    literalOnly "eth".data = true ∧
      ∃ sel : DeviceRun Unit Unit → Bool, (∀ d, sel d = true ↔ IfaceForm "eth" d.iface) ∧
        createTasks jsondumpOnly "eth" [eth0] = .ok (configureAll jsondumpOnly ([eth0].filter sel)) :=
  ⟨by decide, createTasks_selects jsondumpOnly "eth" (by decide) [eth0]⟩

end Tcpdumpw
