import Strimserver.Containerd.Errors
import Strimserver.Oci.Document

/-!
# The spec that is sent

`new_container_locked` builds the text of the spec and sends it as the value of an `Any`.
`pb_bytes_new` copies the text and keeps its length as a `pb_size_t`, which has 16 bits, and the
encoder goes by that length. `create_carries_spec_iff` says when the request carries the text.
-/

namespace Strimserver.Containerd

open Library Oci List Prog

/-! ## What a record says -/

/-- The containers that were sent to `Containers/Create`. -/
def creations (record : Record) : List CreateRequest :=
  record.filterMap fun
    | ⟨.rpc _ (.containersCreate container), _⟩ => some container
    | _ => none

def blobs (record : Record) : List Octets :=
  record.filterMap fun
    | ⟨.rpc _ (.contentRead _), ⟨.ok (some blob), _⟩⟩ => some blob
    | _ => none

/-- The image config, which is the blob that was read last. -/
def configRead (record : Record) : Option ParsedConfig :=
  (blobs record).getLast?.bind parseImageConfig

/-- An RPC that neither creates a container nor reads a blob. -/
def Rpc.isPlain : Rpc → Bool
  | containersCreate _ | contentRead _ => false
  | _ => true

/-- What of a record matters here. -/
def seen (record : Record) : List CreateRequest × List Octets := (creations record, blobs record)

section

variable (record : Record)

theorem seen_append (tail : Record) :
    seen (record ++ tail) = (creations record ++ creations tail, blobs record ++ blobs tail) :=
  congrArg₂ Prod.mk filterMap_append filterMap_append

theorem seen_unmoved {tail : Record} (unseen : seen tail = ([], [])) :
    seen (record ++ tail) = seen record := by
  obtain ⟨noCreations, noBlobs⟩ := Prod.mk.inj unseen
  rw [seen_append, noCreations, noBlobs, append_nil, append_nil]
  rfl

theorem seen_plain {rpc : Rpc} (plain : rpc.isPlain = true) (connection : Connection)
    (reply : Reply (.rpc connection rpc)) :
    seen (record ++ [⟨.rpc connection rpc, reply⟩]) = seen record := by
  refine seen_unmoved record ?_
  cases rpc with
  | containersCreate | contentRead => cases plain
  | _ => rfl

theorem seen_dial (connection : Connection) (reply : Reply (.dial connection)) :
    seen (record ++ [⟨.dial connection, reply⟩]) = seen record := seen_unmoved record rfl

end

/-! ## Until the container is created -/

/-- No container has been created yet, by a client of some namespace. -/
structure Before (ns : Octets) (read : List Octets → Prop) (c : Client) (record : Record) :
    Prop where
  ns : c.ns = ns
  none : creations record = []
  read : read (blobs record)

section

variable {ns : Octets} {read : List Octets → Prop} {c : Client}

theorem Before.of_seen {c' : Client} {record record' : Record} (before : Before ns read c record)
    (same : seen record' = seen record) (kept : c'.ns = c.ns) : Before ns read c' record' := by
  obtain ⟨created, blobs⟩ := Prod.mk.inj same
  refine ⟨kept.trans before.ns, created.trans before.none, ?_⟩
  rw [blobs]
  exact before.read

/-- The rule for an RPC of `shared_unary_locked`. -/
theorem sharedUnary_before {rpc : Rpc} (plain : rpc.isPlain = true) :
    Prog.Triple Prog.Recorded (Before ns read c) (sharedUnary rpc c) fun out =>
      Before ns read out.2 := by
  have rest : ∀ c, Prog.Triple Prog.Recorded (Before ns read c) (unary rpc c) fun out =>
      Before ns read out.2 := by
    intro c
    refine triple_call (fun reply => Before ns read (c.afterUnary reply.result)) ?_
      fun reply => triple_ret fun _ before => before
    rintro record reply _ before rfl
    refine before.of_seen (seen_plain record plain .shared reply) ?_
    cases reply.result <;> rfl
  rw [sharedUnary]
  cases c.connected with
  | true => exact rest c
  | false =>
    refine triple_call (fun _ => Before ns read c) ?_ ?_
    · rintro record reply _ before rfl
      exact before.of_seen (seen_dial record .shared reply) rfl
    intro reply
    cases reply with
    | error => exact triple_ret fun _ before => before
    | ok _ => exact (rest _).pre_mono fun _ before => ⟨before.ns, before.none, before.read⟩

theorem helperRpc_before {rpc : Rpc} (plain : rpc.isPlain = true) :
    Prog.Triple Prog.Recorded (Before ns read c) (helperRpc rpc c) fun out =>
      Before ns read out.2 := by
  rw [helperRpc]
  cases c.connected with
  | false => exact triple_ret fun _ before => before
  | true =>
    refine triple_call (fun _ => Before ns read c) ?_
      fun _ => triple_ret fun _ before => before
    rintro record reply _ before rfl
    exact before.of_seen (seen_plain record plain .shared reply) rfl

/-- The rule for a blob: what is kept while it is read, and what is known of the last one. -/
theorem triple_contentReadBlob {W : Type} {answers : W → (e : Call) → Reply e → W → Prop}
    {before : W → Prop} {c : Client} {digest : Octets} (kept : W → Prop) (last : Octets → W → Prop)
    (weaker : ∀ w, before w → kept w)
    (reads : ∀ w reply w', before w → answers w (.rpc .shared (.contentRead digest)) reply w' →
      kept w' ∧ ∀ blob, reply.result = .ok (some blob) → last blob w') :
    Prog.Triple answers before (contentReadBlob digest c) fun out w =>
      out.2 = c ∧ kept w ∧ ∀ blob, out.1 = .ok blob → last blob w := by
  rw [contentReadBlob, helperRpc]
  cases c.connected with
  | false => exact triple_ret fun w holds => ⟨rfl, weaker w holds, by rintro _ ⟨⟩⟩
  | true =>
    refine triple_call (fun reply w =>
      kept w ∧ ∀ blob, reply.result = .ok (some blob) → last blob w) reads ?_
    rintro ⟨result, died⟩
    rcases result with rc | _ | blob
    · exact triple_ret fun _ known => ⟨rfl, known.1, by rintro _ ⟨⟩⟩
    · exact triple_ret fun _ known => ⟨rfl, known.1, by rintro _ ⟨⟩⟩
    refine triple_ret fun _ known => ⟨rfl, known.1, fun _ same => ?_⟩
    cases same
    exact known.2 blob rfl

/-- A blob that is returned is the one that was read last. -/
theorem contentReadBlob_before (digest : Octets) :
    Prog.Triple Prog.Recorded (Before ns read c) (contentReadBlob digest c) fun out =>
      Before ns (fun blobs => ∀ blob, out.1 = .ok blob → blobs.getLast? = some blob) out.2 := by
  refine (triple_contentReadBlob (fun record => c.ns = ns ∧ creations record = [])
    (fun blob record => (blobs record).getLast? = some blob)
    (fun _ before => ⟨before.ns, before.none⟩) ?_).post_mono ?_
  · rintro record ⟨result, died⟩ _ before rfl
    have appended := Prod.mk.inj (seen_append record
      [⟨.rpc .shared (.contentRead digest), ⟨result, died⟩⟩])
    refine ⟨⟨before.ns, appended.1.trans ?_⟩, fun blob same => ?_⟩
    · rw [before.none]
      rfl
    cases same
    rw [appended.2]
    exact List.getLast?_concat
  · rintro ⟨_, _⟩ record ⟨rfl, ⟨ns, none⟩, last⟩
    exact ⟨ns, none, last⟩

/-- Nothing is known of the blobs. -/
theorem Before.forget {record : Record} (before : Before ns read c record) :
    Before ns (fun _ => True) c record := ⟨before.ns, before.none, trivial⟩

theorem getImage_before (ref : Octets) :
    Prog.Triple Prog.Recorded (Before ns read c) (getImage ref c) fun out =>
      Before ns (fun _ => True) out.2 := by
  refine (sharedUnary_before rfl).bind fun ⟨result, c⟩ => ?_
  rcases result with rc | _ | digest <;> exact triple_ret fun _ => Before.forget

theorem triple_resolveConfigDigest {W : Type} {answers : W → (e : Call) → Reply e → W → Prop}
    {kept : Client → W → Prop} (reads : ∀ digest c,
      Prog.Triple answers (kept c) (contentReadBlob digest c) fun out => kept out.2)
    (wantArch targetDigest : Octets) (c : Client) :
    Prog.Triple answers (kept c) (resolveConfigDigest wantArch targetDigest c)
      fun out => kept out.2 := by
  refine (reads targetDigest c).bind fun ⟨result, c⟩ => ?_
  cases result with
  | error => exact triple_ret fun _ => id
  | ok blob =>
    dsimp only
    cases (Json.parse blob).filter isObj with
    | none => exact triple_ret fun _ => id
    | some root =>
      dsimp only
      cases indexDigest wantArch root with
      | none => exact triple_ret fun _ => id
      | some digest =>
        refine (reads digest c).bind fun ⟨result, c⟩ => ?_
        cases result with
        | error => exact triple_ret fun _ => id
        | ok blob =>
          dsimp only
          cases Json.parse blob <;> exact triple_ret fun _ => id

end

/-! ## The request -/

/-- Each container that was created has the text that was built, as `pb_bytes_new` keeps it. -/
def Built (env : Env) (ns id : Octets) (spec : Spec) (record : Record) : Prop :=
  ∀ request ∈ creations record, ∃ parsed text, configRead record = some parsed ∧
    buildSpec env.alloc env.host spec parsed.config (some ns) id env.cdi = some text ∧
    request.specValue = pbBytesNew text

/-- The config was read from the last blob. -/
def ConfigLast (parsed : ParsedConfig) (blobs : List Octets) : Prop :=
  blobs.getLast?.bind parseImageConfig = some parsed

section

variable {ns : Octets} {read : List Octets → Prop} {c : Client}
variable (env : Env) (id snapshotId imageName : Octets) (spec : Spec)

variable {env id spec} in
/-- Nothing has been created where a program returns before the request. -/
theorem built_ret {α : Type} {a : α} : Prog.Triple Prog.Recorded (Before ns read c)
    (.ret a : Prog Call Reply α) fun _ => Built env ns id spec := by
  refine triple_ret fun record before request sent => ?_
  rw [before.none] at sent
  cases sent

theorem createContainer_built (parsed : ParsedConfig) :
    Prog.Triple Prog.Recorded (Before ns (ConfigLast parsed) c)
      (createContainer env id snapshotId imageName spec parsed.config c)
      fun _ => Built env ns id spec := by
  rw [createContainer]
  cases built : buildSpec env.alloc env.host spec parsed.config (some c.ns) id env.cdi with
  | none => exact built_ret
  | some text =>
    have rest : ∀ c' : Client, c'.ns = c.ns →
        Prog.Triple Prog.Recorded (Before ns (ConfigLast parsed) c')
          (unary (.containersCreate ⟨id, imageName, defaultRuntime, specTypeUrl, pbBytesNew text,
            defaultSnapshotter, snapshotId⟩) c')
          fun _ => Built env ns id spec := by
      intro c' same
      refine triple_call (fun _ => Built env ns id spec) ?_
        fun _ => triple_ret fun _ done => done
      rintro record reply _ before rfl
      have ns := before.ns
      rw [← same, ns] at built
      obtain ⟨created, read⟩ := Prod.mk.inj (seen_append record [_])
      intro sent mem
      rw [created, before.none] at mem
      cases mem_singleton.mp mem
      refine ⟨parsed, text, ?_, built, rfl⟩
      rw [configRead, read, show blobs [_] = [] from rfl, append_nil]
      exact before.read
    have sent : Prog.Triple Prog.Recorded (Before ns (ConfigLast parsed) c)
        (sharedUnary (.containersCreate ⟨id, imageName, defaultRuntime, specTypeUrl,
          pbBytesNew text, defaultSnapshotter, snapshotId⟩) c)
        fun _ => Built env ns id spec := by
      rw [sharedUnary]
      cases c.connected with
      | true => exact rest c rfl
      | false =>
        refine triple_call (fun _ => Before ns (ConfigLast parsed) c) ?_ ?_
        · rintro record reply _ before rfl
          exact before.of_seen (seen_dial record .shared reply) rfl
        intro reply
        cases reply with
        | error => exact built_ret
        | ok _ =>
          exact (rest { c with connected := true } rfl).pre_mono fun _ before =>
            ⟨before.ns, before.none, before.read⟩
    refine sent.bind fun out => ?_
    rcases out with ⟨rc | _ | _, c⟩ <;> exact triple_ret fun _ done => done

theorem prepareAndCreate_built (parsed : ParsedConfig) :
    Prog.Triple Prog.Recorded (Before ns (ConfigLast parsed) c)
      (prepareAndCreate env id snapshotId imageName spec parsed c)
      fun _ => Built env ns id spec := by
  rw [prepareAndCreate]
  cases computeChainId parsed.diffIds with
  | none => exact built_ret
  | some =>
    refine (helperRpc_before rfl).bind fun ⟨result, c⟩ => ?_
    cases result with
    | ok => exact createContainer_built env id snapshotId imageName spec parsed
    | error =>
      dsimp only
      split_ifs
      · exact createContainer_built env id snapshotId imageName spec parsed
      · exact built_ret

theorem newContainer_built :
    Prog.Triple Prog.Recorded (Before ns read c) (newContainer env id snapshotId imageName spec c)
      fun _ => Built env ns id spec := by
  refine (getImage_before imageName).bind fun ⟨result, c⟩ => ?_
  rcases result with rc | ⟨name, _ | targetDigest⟩
  · exact built_ret
  · exact built_ret
  refine (triple_resolveConfigDigest (fun digest c => (contentReadBlob_before digest).post_mono
    fun _ _ => Before.forget) env.wantArch targetDigest c).bind fun ⟨result, c⟩ => ?_
  rcases result with rc | digest
  · exact built_ret
  refine (contentReadBlob_before digest).bind fun ⟨result, c⟩ => ?_
  rcases result with rc | blob
  · exact built_ret
  dsimp only
  cases parse : parseImageConfig blob with
  | none => exact built_ret
  | some parsed =>
    refine (prepareAndCreate_built env id snapshotId imageName spec parsed).pre_mono ?_
    intro record before
    refine ⟨before.ns, before.none, ?_⟩
    rw [ConfigLast, before.read blob rfl]
    exact parse

end

/-! ## When the text is carried -/

theorem pbBytesNew_eq_iff (data : Octets) : pbBytesNew data = data ↔ data.length < pbSizeT := by
  rw [pbBytesNew, take_eq_self_iff]
  have positive : 0 < pbSizeT := by decide
  constructor
  · intro fits
    exact lt_of_le_of_lt fits (Nat.mod_lt _ positive)
  · intro small
    exact (Nat.mod_eq_of_lt small).ge

/-- **The spec in the request.** When all allocations succeed, each `Containers/Create` of a run of
`new_container_locked` carries the text built from the image config of the run just if it has fewer
than 65536 octets. -/
theorem create_carries_spec_iff (env : Env) (allocated : ∀ n, env.alloc n = true)
    (id snapshotId imageName : Octets) (spec : Spec) (c c' : Client) (result : Except ℤ Container)
    (record : Record)
    (run : Prog.Runs Prog.Recorded [] (newContainer env id snapshotId imageName spec c)
      (result, c') record)
    (request : CreateRequest) (sent : request ∈ creations record) :
    ∃ parsed text, configRead record = some parsed ∧
      buildSpec env.alloc env.host spec parsed.config (some c.ns) id env.cdi = some text ∧
      text = Json.render (document env.host spec parsed.config (some c.ns) id env.cdi) ∧
      (request.specValue = text ↔ text.length < pbSizeT) := by
  have start : Before c.ns (fun _ => True) c [] := ⟨rfl, rfl, trivial⟩
  have built := (newContainer_built env id snapshotId imageName spec).post_of_runs start run
  obtain ⟨parsed, text, read, textBuilt, value⟩ := built request sent
  have rendered :=
    buildSpec_eq env.alloc allocated env.host spec parsed.config (some c.ns) id env.cdi
  refine ⟨parsed, text, read, textBuilt, Option.some.inj (textBuilt.symm.trans rendered), ?_⟩
  rw [value]
  exact pbBytesNew_eq_iff text

/-! ## A document that is cut -/

/-- A manifest. -/
def manifestJson : Json := .obj [(ascii "config", .obj [(ascii "digest", .str (ascii "sha256:c"))])]

/-- The config of an image with one layer. -/
def layerConfig (diffId : Octets) : Json :=
  .obj [(ascii "rootfs", .obj [(ascii "diff_ids", .arr [.str diffId])])]

/-- The layer of an image. -/
def oldLayer : Octets := ascii "sha256:d"

theorem wellFormed_blobs :
    (∀ s ∈ Json.strings manifestJson, Utf8.Valid s) ∧
    ∀ s ∈ Json.strings (layerConfig oldLayer), Utf8.Valid s := by
  decide

/-- What is read of such a config. -/
def plainConfig : ImageConfig := ⟨[], [], [], none, none⟩

theorem parse_layerConfig {diffId : Octets}
    (wellFormed : ∀ s ∈ Json.strings (layerConfig diffId), Utf8.Valid s)
    (terminated : cString diffId = diffId) :
    parseImageConfig (Json.render (layerConfig diffId)) = some ⟨plainConfig, [diffId]⟩ := by
  rw [parseImageConfig, Json.parse_render, if_pos wellFormed]
  show some (ParsedConfig.mk plainConfig [cString diffId]) = _
  rw [terminated]

theorem parse_oldLayer :
    parseImageConfig (Json.render (layerConfig oldLayer)) = some ⟨plainConfig, [oldLayer]⟩ :=
  parse_layerConfig wellFormed_blobs.2 (by decide)

/-- What `new_container_locked` reads of an image with one layer. -/
def imageRead (diffId : Octets) : Record :=
  [⟨.rpc .shared (.imagesGet (ascii "image")), ⟨.ok (some (some (ascii "sha256:m"))), false⟩⟩,
    ⟨.rpc .shared (.contentRead (ascii "sha256:m")),
      ⟨.ok (some (Json.render manifestJson)), false⟩⟩,
    ⟨.rpc .shared (.contentRead (ascii "sha256:c")),
      ⟨.ok (some (Json.render (layerConfig diffId))), false⟩⟩]

/-- The environment of a run: no files, no CDI edits, and an allocator that never fails. -/
def plainEnv : Env := ⟨ascii "amd64", fun _ => true, ⟨none, none⟩, none⟩

def argSpec (arg : Octets) : Spec := ⟨⟨[arg], [], []⟩, [], false, none, []⟩

def argText (arg : Octets) : Octets :=
  Json.render (document ⟨none, none⟩ (argSpec arg) plainConfig (some (ascii "default"))
    (ascii "ffmpeg") none)

def argRequest (arg : Octets) : CreateRequest :=
  ⟨ascii "ffmpeg", ascii "image", defaultRuntime, specTypeUrl, pbBytesNew (argText arg),
    defaultSnapshotter, ascii "ffmpeg-snapshot"⟩

section

variable {W : Type} {answers : W → (e : Call) → Reply e → W → Prop} {w w₁ w₂ w₃ w₄ w' : W}
  {id snapshotId : Octets} {spec : Spec}

/-- A new container, once the snapshot is prepared or found. -/
theorem newContainer_runs {status : ℤ} {blob diffId : Octets} {out : Except ℤ Container × Client}
    (prepared : Except Failure Unit) (image : answers w (.rpc .shared (.imagesGet (ascii "image")))
      ⟨.ok (some (some (ascii "sha256:m"))), false⟩ w₁)
    (manifest : answers w₁ (.rpc .shared (.contentRead (ascii "sha256:m")))
      ⟨.ok (some (Json.render manifestJson)), false⟩ w₂)
    (config : answers w₂ (.rpc .shared (.contentRead (ascii "sha256:c")))
      ⟨.ok (some blob), false⟩ w₃)
    (parses : parseImageConfig blob = some ⟨plainConfig, [diffId]⟩)
    (prepares : answers w₃ (.rpc .shared (.snapshotsPrepare defaultSnapshotter snapshotId diffId))
      ⟨prepared, false⟩ w₄) (passes : ∀ rc, prepared = .error rc → rc.val = statusAlreadyExists)
    (rest : Prog.Runs answers w₄
      (createContainer plainEnv id snapshotId (ascii "image") spec plainConfig
      ⟨true, 0, ascii "default"⟩) out w') :
    Prog.Runs answers w (newContainer plainEnv id snapshotId (ascii "image") spec
      ⟨true, status, ascii "default"⟩) out w' := by
  let c : Client := ⟨true, 0, ascii "default"⟩
  rw [newContainer, runs_bind]
  refine ⟨(.ok ⟨ascii "image", some (ascii "sha256:m")⟩, c), w₁,
    .call image (.ret (Except.ok _, c)), ?_⟩
  dsimp only
  rw [containerFrom, runs_bind]
  refine ⟨(.ok (ascii "sha256:c"), c), w₂, ?_, ?_⟩
  · rw [resolveConfigDigest, runs_bind]
    refine ⟨(.ok (Json.render manifestJson), c), w₂, .call manifest (.ret (Except.ok _, c)), ?_⟩
    dsimp only
    rw [Json.parse_render, if_pos wellFormed_blobs.1]
    exact .ret (Except.ok _, c)
  rw [runs_bind]
  refine ⟨(.ok blob, c), w₃, .call config (.ret (Except.ok _, c)), ?_⟩
  have chain : computeChainId [diffId] = some diffId := rfl
  dsimp only
  rw [parses]
  dsimp only
  rw [prepareAndCreate, chain]
  refine runs_bind.mpr ⟨(prepared, c), w₄, .call prepares (.ret (_, c)), ?_⟩
  cases prepared with
  | ok => exact rest
  | error rc =>
    dsimp only
    rw [if_pos (passes rc rfl)]
    exact rest

theorem createContainer_runs (created : answers w (.rpc .shared (.containersCreate
      ⟨id, ascii "image", defaultRuntime, specTypeUrl, pbBytesNew (Json.render
        (document plainEnv.host spec plainConfig (some (ascii "default")) id none)),
        defaultSnapshotter, snapshotId⟩)) ⟨.ok (some ()), false⟩ w') :
    Prog.Runs answers w (createContainer plainEnv id snapshotId (ascii "image") spec plainConfig
        ⟨true, 0, ascii "default"⟩)
      (.ok ⟨id, some (ascii "image"), some defaultRuntime, some defaultSnapshotter,
        some snapshotId⟩,
        ⟨true, 0, ascii "default"⟩) w' := by
  rw [createContainer, buildSpec_eq plainEnv.alloc (fun _ => rfl)]
  exact .call created (.ret (Except.ok _, _))

end

/-- The calls for the spec, when all goes well. -/
def argRecord (arg : Octets) : Record :=
  imageRead oldLayer ++
    [⟨.rpc .shared (.snapshotsPrepare defaultSnapshotter (ascii "ffmpeg-snapshot") oldLayer),
      ⟨.ok (), false⟩⟩,
    ⟨.rpc .shared (.containersCreate (argRequest arg)), ⟨.ok (some ()), false⟩⟩]

theorem argRecord_runs (arg : Octets) : Prog.Runs Prog.Recorded []
      (newContainer plainEnv (ascii "ffmpeg") (ascii "ffmpeg-snapshot")
        (ascii "image") (argSpec arg)
        ⟨true, 0, ascii "default"⟩)
      (.ok ⟨ascii "ffmpeg", some (ascii "image"), some defaultRuntime, some defaultSnapshotter,
        some (ascii "ffmpeg-snapshot")⟩, ⟨true, 0, ascii "default"⟩) (argRecord arg) :=
  newContainer_runs (.ok ()) rfl rfl rfl parse_oldLayer rfl nofun (createContainer_runs rfl)

/-- A short argument goes through. -/
theorem create_carries_short_spec :
    argRequest (ascii "ffmpeg") ∈ creations (argRecord (ascii "ffmpeg")) ∧
      (argRequest (ascii "ffmpeg")).specValue = argText (ascii "ffmpeg") := by
  have sent : argRequest (ascii "ffmpeg") ∈ creations (argRecord (ascii "ffmpeg")) :=
    mem_singleton.mpr rfl
  obtain ⟨parsed, text, read, _, rendered, carried⟩ :=
    create_carries_spec_iff plainEnv (fun _ => rfl) _ _ _
    _ _ _ _ _ (argRecord_runs (ascii "ffmpeg")) _ sent
  have config : configRead (argRecord (ascii "ffmpeg")) = some ⟨plainConfig, [oldLayer]⟩ :=
    parse_oldLayer
  cases Option.some.inj (config.symm.trans read)
  have fits : (argText (ascii "ffmpeg")).length < pbSizeT := by decide +kernel
  refine ⟨sent, ?_⟩
  rw [← show text = argText (ascii "ffmpeg") from rendered]
  rw [← show text = argText (ascii "ffmpeg") from rendered] at fits
  exact carried.mpr fits

/-- The text is at least as long as the argument. -/
theorem length_le_argText (arg : Octets) : arg.length ≤ (argText arg).length := by
  refine (List.Sublist.length_le (sublist_flatten_of_mem ?_)).trans (Json.length_strings_le _)
  have process : arg ∈ Json.strings (processJson ⟨none, none⟩ (argSpec arg) plainConfig none) := by
    rw [processJson, Json.strings, Json.mem_stringsMembers]
    refine ⟨(ascii "args", strings [arg]),
      by simp [member, argsTail, argSpec, plainConfig], .inr ?_⟩
    rw [strings, Json.strings, Json.mem_stringsItems]
    exact ⟨.str arg, mem_singleton.mpr rfl, mem_singleton.mpr rfl⟩
  rw [document, Json.strings, Json.mem_stringsMembers]
  refine ⟨(ascii "process", processJson ⟨none, none⟩ (argSpec arg) plainConfig none),
    ?_, .inr process⟩
  simp only [member, mem_append, mem_singleton, true_or, or_true]

theorem create_cuts_spec :
    ∃ (c' : Client) (result : Except ℤ Container) (record : Record) (request : CreateRequest)
      (text : Octets),
      Prog.Runs Prog.Recorded []
        (newContainer plainEnv (ascii "ffmpeg") (ascii "ffmpeg-snapshot") (ascii "image")
          (argSpec (List.replicate pbSizeT 0x61)) ⟨true, 0, ascii "default"⟩) (result, c') record ∧
      request ∈ creations record ∧
      buildSpec plainEnv.alloc plainEnv.host (argSpec (List.replicate pbSizeT 0x61)) plainConfig
        (some (ascii "default")) (ascii "ffmpeg") plainEnv.cdi = some text ∧
      request.specValue.length < text.length := by
  have long : pbSizeT ≤ (List.replicate pbSizeT (0x61 : UInt8)).length := length_replicate.ge
  generalize List.replicate pbSizeT (0x61 : UInt8) = arg at long ⊢
  refine ⟨_, _, argRecord arg, argRequest arg, argText arg, argRecord_runs arg,
    mem_singleton.mpr rfl, buildSpec_eq plainEnv.alloc (fun _ => rfl) .., ?_⟩
  calc (pbBytesNew (argText arg)).length ≤ (argText arg).length % pbSizeT := length_take_le _ _
    _ < pbSizeT := Nat.mod_lt _ (by decide)
    _ ≤ (argText arg).length := long.trans (length_le_argText arg)

end Strimserver.Containerd
