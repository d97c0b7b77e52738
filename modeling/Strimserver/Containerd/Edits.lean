import Strimserver.Containerd.Cdi
import Strimserver.Oci.Faithful

/-!
# What the edits of a device come to

From the reference to a device to what a container is told: which edits `strim_cdi_resolve`
finds, which environment the document has with them, and which devices its rules open.

The search stops at the first spec of the kind, so a device in a later one is not found. The
environment goes through an array of 64 entries, and what comes behind them is dropped. The rules
open the character devices of the edits and nothing else.
-/

namespace Strimserver.Containerd

open Library Oci List Option

/-! ## The search -/

/-- An entry of the index that is of the kind of a reference and has a device of its name. -/
def CdiSpec.Offers (ref : CdiRef) (spec : CdiSpec) (device : Octets × CdiEdits) : Prop :=
  spec.kind = ref.vendor ++ 0x2F :: ref.deviceClass ∧ device ∈ spec.devices ∧ device.1 = ref.id

/-- The edits of an entry with those of a device behind them, as one list each. -/
theorem pendingAppendEdits_twice (spec device : CdiEdits) :
    Cdi.pendingAppendEdits (Cdi.pendingAppendEdits noEdits spec) device =
      { env := spec.env ++ device.env
        mounts := spec.mounts ++ device.mounts
        devices := (spec.devices ++ device.devices).map CdiDevice.typed
        hooks := spec.hooks ++ device.hooks
        additionalGids := spec.additionalGids ++ device.additionalGids } := by
  simp [Cdi.pendingAppendEdits, noEdits]

variable {ref : CdiRef} {specs : List CdiSpec} {first : CdiSpec}

/-- A resolve looks for the device in the first entry of the kind. -/
theorem resolve_first (pending : Option CdiEdits) (found : Cdi.findSpec ref specs = some first) :
    ((Cdi.resolve ref true ⟨some specs, pending⟩).1 = .error ⟨cdiErrNotFound, by decide⟩ ∧
      ∀ device, ¬ first.Offers ref device) ∨
    ∃ device, first.Offers ref device ∧ Cdi.resolve ref true ⟨some specs, pending⟩ =
      (.ok (), ⟨some specs, some (Cdi.pendingAppendEdits
        (Cdi.pendingAppendEdits noEdits first.edits) device.2)⟩) := by
  unfold Cdi.resolve
  dsimp only
  rw [found]
  dsimp only
  cases named : Cdi.findDevice ref first with
  | none =>
    refine .inl ⟨rfl, fun device offers => ?_⟩
    exact List.find?_eq_none.mp named device offers.2.1 (decide_eq_true offers.2.2)
  | some device =>
    have name := List.find?_some named
    have kind := List.find?_some found
    exact .inr ⟨device, ⟨of_decide_eq_true kind, List.mem_of_find?_eq_some named,
      of_decide_eq_true name⟩, rfl⟩

/-- **What a resolve finds.** With memory granted it succeeds for every device of the index just if
the first entry of a kind has each device that some entry of the kind has. A resolve that succeeds
leaves the edits of an entry that offers the device, then those of the device; a node without a type
has type `c`. -/
theorem resolve_complete_iff (ref : CdiRef) (specs : List CdiSpec) (pending : Option CdiEdits) :
    (((Cdi.resolve ref true ⟨some specs, pending⟩).1 = .ok () ↔
        ∃ spec ∈ specs, ∃ device, spec.Offers ref device) ↔
      ∀ spec ∈ specs, ∀ device, spec.Offers ref device →
        ∃ first, Cdi.findSpec ref specs = some first ∧ ∃ device, first.Offers ref device) ∧
    ((Cdi.resolve ref true ⟨some specs, pending⟩).1 = .ok () →
      ∃ spec ∈ specs, ∃ device, spec.Offers ref device ∧
        (Cdi.resolve ref true ⟨some specs, pending⟩).2 =
          ⟨some specs, some
            { env := spec.edits.env ++ device.2.env
              mounts := spec.edits.mounts ++ device.2.mounts
              devices := (spec.edits.devices ++ device.2.devices).map fun d =>
                { d with type := some (d.type.getD (ascii "c")) }
              hooks := spec.edits.hooks ++ device.2.hooks
              additionalGids := spec.edits.additionalGids ++ device.2.additionalGids }⟩) := by
  cases found : Cdi.findSpec ref specs with
  | none =>
    have missing : ∀ spec ∈ specs, ∀ device, ¬ spec.Offers ref device :=
      fun spec mem device offers =>
      List.find?_eq_none.mp found spec mem (decide_eq_true offers.1)
    have failed : (Cdi.resolve ref true ⟨some specs, pending⟩).1 =
        .error ⟨cdiErrNotFound, by decide⟩ := by
      unfold Cdi.resolve
      dsimp only
      rw [found]
    rw [failed]
    refine ⟨iff_of_true ⟨nofun, ?_⟩ ?_, nofun⟩
    · rintro ⟨spec, mem, device, offers⟩
      exact (missing spec mem device offers).elim
    · exact fun spec mem device offers => (missing spec mem device offers).elim
  | some first =>
    have mem := List.mem_of_find?_eq_some found
    rcases resolve_first pending found with ⟨failed, missing⟩ | ⟨device, offers, resolved⟩
    · rw [failed]
      refine ⟨⟨fun complete spec mem device offers => ?_, fun named => ⟨nofun, ?_⟩⟩, nofun⟩
      · cases complete.mpr ⟨spec, mem, device, offers⟩
      rintro ⟨spec, mem, device, offers⟩
      obtain ⟨_, same, device, offers⟩ := named spec mem device offers
      cases same
      exact (missing device offers).elim
    rw [resolved, pendingAppendEdits_twice]
    refine ⟨iff_of_true (iff_of_true rfl ⟨first, mem, device, offers⟩) ?_, fun _ => ?_⟩
    · exact fun _ _ _ _ => ⟨first, rfl, device, offers⟩
    · exact ⟨first, mem, device, offers, rfl⟩

/-- Two specs of one kind, one device each. -/
def splitSpecs : List CdiSpec :=
  [⟨ascii "nvidia.com/gpu", noEdits, [(ascii "0", noEdits)]⟩,
    ⟨ascii "nvidia.com/gpu", noEdits, [(ascii "1", noEdits)]⟩]

/-- The device of the second spec is not found. -/
theorem second_spec_not_searched :
    (∃ spec ∈ splitSpecs, ∃ device,
      spec.Offers ⟨ascii "nvidia.com", ascii "gpu", ascii "1"⟩ device) ∧
    (Cdi.resolve ⟨ascii "nvidia.com", ascii "gpu", ascii "1"⟩ true ⟨some splitSpecs, none⟩).1 =
      .error ⟨cdiErrNotFound, by decide⟩ := by
  refine ⟨⟨_, mem_cons_of_mem _ (mem_singleton.mpr rfl), (ascii "1", noEdits), ?_⟩,
    by rfl⟩
  exact ⟨by decide, mem_singleton.mpr rfl, rfl⟩

/-! ## The environment -/

def readEnv (doc : Json) : Option (List Octets) :=
  (field some "process" doc).bind (field readStrings "env")

section

variable (host : Host) (spec : Spec) (image : ImageConfig) (ns : Option Octets)
  (containerId : Octets)
  (cdi : Option CdiEdits)

theorem collect_length_le {α : Type} (cap : ℕ) (keep : List α → α → Bool) (xs acc : List α)
    (room : acc.length ≤ cap) : (collect cap keep xs acc).length ≤ cap := by
  induction xs generalizing acc with
  | nil => exact room
  | cons x xs ih =>
    rw [collect]
    split_ifs
    · refine ih _ ?_
      rw [length_append, length_singleton]
      omega
    · exact ih _ room
    · exact room

theorem mergedEnv_length_le : (mergedEnv spec image cdi).length ≤ specMaxEnv := by
  have base :=
    collect_length_le specMaxEnv (fun _ _ => true) (baseEnv spec image) [] (Nat.zero_le _)
  cases cdi with
  | none => exact base
  | some => exact collect_length_le _ _ _ _ base

theorem readEnv_document :
    readEnv (document host spec image ns containerId cdi) = some (mergedEnv spec image cdi) := by
  rw [readEnv, process_document, bind_some, env_processJson]

/-- **The environment of the document** is the base list with the entries of the edits whose key is
not in it, before or behind the merge, just if these are no more than 64 together. -/
theorem environment_lossless_iff :
    ∃ doc, (emitSpec host spec image ns containerId cdi).flatten = Json.render doc ++ [0x00] ∧
      (readEnv doc = some (givenEnv spec image cdi) ↔
        (givenEnv spec image cdi).length ≤ specMaxEnv) ∧
      ∀ edits, cdi = some (Cdi.dropEnvDuplicates spec.process.env edits) →
        givenEnv spec image cdi = givenEnv spec image (some edits) := by
  refine ⟨_, emitSpec_flatten host spec image ns containerId cdi, ?_, fun edits merged => ?_⟩
  · rw [readEnv_document, Option.some.injEq]
    exact ⟨fun same => same ▸ mergedEnv_length_le spec image cdi, mergedEnv_eq spec image cdi⟩
  rw [merged]
  by_cases set : spec.process.env = []
  · -- No base entry of the spec: nothing is dropped.
    have kept : edits.env.filter (fun entry => !envHasKey [] entry) = edits.env :=
      filter_eq_self.mpr fun _ _ => rfl
    rw [set, Cdi.dropEnvDuplicates, kept]
  have base : baseEnv spec image = spec.process.env := if_pos set
  rw [givenEnv, givenEnv, base]
  simp only [Option.map_some, Option.getD_some, Cdi.dropEnvDuplicates, List.filter_filter,
    Bool.and_self]

end

/-- An image with more variables than there is room for. -/
def crowdedImage : ImageConfig := { bareImage with env := List.replicate 65 (ascii "A=1") }

/-- The last variable of the image is dropped. -/
theorem image_variable_dropped :
    ∃ doc, (emitSpec bareHost (bareSpec none) crowdedImage none (ascii "mediamtx") none).flatten =
        Json.render doc ++ [0x00] ∧
      readEnv doc = some (List.replicate 64 (ascii "A=1")) ∧
      givenEnv (bareSpec none) crowdedImage none = List.replicate 65 (ascii "A=1") := by
  refine ⟨_, emitSpec_flatten _ _ _ _ _ _, ?_, by decide⟩
  rw [readEnv_document, Option.some.injEq]
  decide

/-! ## The rules for devices -/

/-- A device as a control group sees it. -/
structure Device where
  type : Octets
  major : ℤ
  minor : ℤ

/-- What a control group can allow. -/
inductive Access where
  | read
  | write
  | mknod

def Access.letter : Access → UInt8
  | read => 0x72
  | write => 0x77
  | mknod => 0x6D

/-- A rule is about all types and numbers that it does not name. -/
def matchesDevice (d : Device) (access : Access) (rule : DeviceRule) : Bool :=
  rule.type.all (· = d.type) && rule.major.all (· = d.major) && rule.minor.all (· = d.minor) &&
    rule.access.contains access.letter

/-- The last rule that matches decides. -/
def allows (rules : List DeviceRule) (d : Device) (access : Access) : Bool :=
  (rules.reverse.find? (matchesDevice d access)).any DeviceRule.allow

def readRules (doc : Json) : Option (List DeviceRule) :=
  (field some "linux" doc).bind (field (field (Json.list? readRule) "devices") "resources")

/-- A node that opens a device. -/
def Opens (d : Device) (node : CdiDevice) : Prop :=
  (node.type = none ∨ node.type = some (ascii "c")) ∧
    node.major = d.major ∧ node.minor = d.minor ∧ 0 ≤ d.major ∧ 0 ≤ d.minor

variable (d : Device) (access : Access)

theorem denyRule_matches : matchesDevice d access denyRule = true := by cases access <;> rfl

theorem allowRule_matches (node : CdiDevice) :
    node.allowed = true ∧ matchesDevice d access (allowRule node) = true ↔
      d.type = ascii "c" ∧ Opens d node := by
  have letter : (ascii "rwm").contains access.letter = true := by cases access <;> rfl
  have type : node.type.all (· = ascii "c") = true ↔
      node.type = none ∨ node.type = some (ascii "c") := by
    cases node.type <;> simp
  simp only [CdiDevice.allowed, matchesDevice, allowRule, Opens, Bool.and_eq_true, type, letter,
    all_some, decide_eq_true_eq, Bool.not_eq_true', Bool.or_eq_false_iff, decide_eq_false_iff_not,
    Int.not_lt]
  constructor
  · rintro ⟨⟨⟨major, minor⟩, type⟩, ⟨⟨char, same⟩, same'⟩, -⟩
    exact ⟨char.symm, type, same, same', same ▸ major, same' ▸ minor⟩
  · rintro ⟨char, type, same, same', major, minor⟩
    exact ⟨⟨⟨same ▸ major, same' ▸ minor⟩, type⟩, ⟨⟨char.symm, same⟩, same'⟩, trivial⟩

/-- Behind a rule that denies everything, the rules that allow decide wherever one of them matches.
-/
theorem allows_deny_cons (nodes : List CdiDevice) :
    allows (denyRule :: nodes.map allowRule) d access = true ↔
      ∃ node ∈ nodes, matchesDevice d access (allowRule node) = true := by
  have deny : [denyRule].find? (matchesDevice d access) = some denyRule :=
    List.find?_cons_of_pos (denyRule_matches d access)
  rw [allows, reverse_cons, List.find?_append, deny]
  cases found : (nodes.map allowRule).reverse.find? (matchesDevice d access) with
  | none =>
    refine iff_of_false Bool.false_ne_true ?_
    rintro ⟨node, mem, matching⟩
    exact List.find?_eq_none.mp found (allowRule node)
      (mem_reverse.mpr (mem_map_of_mem mem)) matching
  | some =>
    obtain ⟨node, mem, rfl⟩ := mem_map.mp (mem_reverse.mp (List.mem_of_find?_eq_some found))
    exact iff_of_true rfl ⟨node, mem, List.find?_some found⟩

theorem allows_iff (spec : Spec) (image : ImageConfig) (cdi : Option CdiEdits) :
    allows (givenLists spec image cdi).rules d access = true ↔
      d.type = ascii "c" ∧ ∃ node ∈ docDevices cdi, Opens d node := by
  refine (allows_deny_cons d access _).trans ⟨?_, ?_⟩
  · rintro ⟨node, mem, matching⟩
    obtain ⟨mem, allowed⟩ := mem_filter.mp mem
    obtain ⟨char, opens⟩ := (allowRule_matches d access node).mp ⟨allowed, matching⟩
    exact ⟨char, node, mem, opens⟩
  · rintro ⟨char, node, mem, opens⟩
    obtain ⟨allowed, matching⟩ := (allowRule_matches d access node).mpr ⟨char, opens⟩
    exact ⟨node, mem_filter.mpr ⟨mem, allowed⟩, matching⟩

/-- **The rules give no more than the edits.** An access is allowed just if the device is a
character device and a node of the edits, without another type, has its numbers. Without edits
nothing is allowed, and one more node makes no difference for another device. -/
theorem device_access_least_privilege (host : Host) (spec : Spec) (image : ImageConfig)
    (ns : Option Octets) (containerId : Octets) :
    ∃ (doc : Option CdiEdits → Json) (rules : Option CdiEdits → List DeviceRule),
      (∀ cdi, (emitSpec host spec image ns containerId cdi).flatten =
        Json.render (doc cdi) ++ [0x00] ∧
        readRules (doc cdi) = some (rules cdi) ∧
        ∀ d access, allows (rules cdi) d access = true ↔
          d.type = ascii "c" ∧ ∃ node ∈ docDevices cdi, Opens d node) ∧
      (∀ d access, allows (rules none) d access = false) ∧
      ∀ (edits : CdiEdits) (before after : List CdiDevice) (node : CdiDevice) (d : Device)
        (access : Access), d ≠ ⟨ascii "c", node.major, node.minor⟩ →
          allows (rules (some { edits with devices := before ++ node :: after })) d access =
            allows (rules (some { edits with devices := before ++ after })) d access := by
  refine ⟨document host spec image ns containerId, fun cdi => (givenLists spec image cdi).rules,
    fun cdi => ⟨emitSpec_flatten _ _ _ _ _ _, ?_, fun d access =>
      allows_iff d access spec image cdi⟩, fun d access => ?_, ?_⟩
  · rw [readRules, linux_document, bind_some, rules_linuxJson]
  · refine Bool.eq_false_iff.mpr fun allowed => ?_
    obtain ⟨_, _, mem, _⟩ := (allows_iff d access spec image none).mp allowed
    cases mem
  intro edits before after node d access other
  rw [Bool.eq_iff_iff, allows_iff, allows_iff]
  refine and_congr_right fun char => ?_
  have closed : ¬ Opens d node := fun ⟨_, major, minor, _⟩ => other (by rw [major, minor, ← char])
  change (∃ node' ∈ before ++ node :: after, _) ↔ ∃ node' ∈ before ++ after, _
  simp only [mem_append, mem_cons]
  constructor
  · rintro ⟨node', mem | rfl | mem, opens⟩
    · exact ⟨node', .inl mem, opens⟩
    · exact (closed opens).elim
    · exact ⟨node', .inr mem, opens⟩
  · rintro ⟨node', mem | mem, opens⟩
    · exact ⟨node', .inl mem, opens⟩
    · exact ⟨node', .inr (.inr mem), opens⟩

end Strimserver.Containerd
