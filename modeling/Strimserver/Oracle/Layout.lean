import Mathlib.Data.List.Basic
import Strimserver.Library.Octets

/-!
# The layout of the host

`strim_default_layout` of `spec.c` and the `DefaultLayout` of the oracle that it is written
after: where the files and directories are that the containers mount. The C code joins paths
itself. It has a case of its own for the root directory, which leaves out the slash, and so the
two agree for every root but that one.
-/

namespace Strimserver.Oracle

open List

def slash : UInt8 := 0x2F

/-- `Layout` and `strim_layout`. -/
structure Layout where
  (env transcode notify mediamtxTmpl srtPass videoDir : Octets)
  resolvConf : Octets := ascii "/run/systemd/resolve/resolv.conf"
  tmp : Octets := ascii "/tmp"
deriving DecidableEq

/-- The sources of the bind mounts. -/
def Layout.sources (l : Layout) : List Octets :=
  [l.env, l.transcode, l.notify, l.mediamtxTmpl, l.srtPass, l.videoDir, l.resolvConf, l.tmp]

/-! ## The C code -/

/-- `snprintf` into a buffer of `STRIM_SPEC_PATH_MAX` octets. -/
def printed (text : Octets) : Octets := text.take 4095

/-- `join_path`. -/
def joinPath (base suffix : Octets) : Octets :=
  printed (if base = [slash] then suffix else base ++ slash :: suffix)

/-- The loop that trims the root, on the octets from the last to the first. -/
def trim : Octets → Octets
  | b :: next :: rest => if b = slash then trim (next :: rest) else b :: next :: rest
  | short => short

/-- `strim_default_layout`, where a null pointer is the empty text. -/
def strimDefaultLayout (hostRoot : Octets) : Layout :=
  let hostRoot := if hostRoot = [] then ascii "/mnt/nvme" else hostRoot
  let root := (trim (printed hostRoot).reverse).reverse
  { env := joinPath root (ascii "config/strimserver.env")
    transcode := joinPath root (ascii "bin/transcode.sh")
    notify := joinPath root (ascii "bin/notify")
    mediamtxTmpl := joinPath root (ascii "config/mediamtx.yaml.template")
    srtPass := joinPath root (ascii "srt-passphrase")
    videoDir := joinPath root (ascii "video-files") }

/-! ## The oracle -/

/-- What an element of a path does to the elements before it. -/
def cleanStep (rooted : Bool) (before : List Octets) (part : Octets) : List Octets :=
  if part = [] ∨ part = ascii "." then before
  else if part = ascii ".." then
    if before ≠ [] ∧ before.getLast? ≠ some (ascii "..") then before.dropLast
    else if rooted then before else before ++ [part]
  else before ++ [part]

/-- `path.Clean`. -/
def clean (path : Octets) : Octets :=
  let rooted := path.head? = some slash
  let text := [slash].intercalate ((path.splitOn slash).foldl (cleanStep rooted) [])
  if rooted then slash :: text else if text = [] then ascii "." else text

/-- `path.Join` of two elements. -/
def join (first second : Octets) : Octets :=
  if first = [] ∧ second = [] then []
  else clean (if first = [] then second else first ++ slash :: second)

/-- `DefaultLayout`. -/
def defaultLayout (hostRoot : Octets) : Layout :=
  let hostRoot := if hostRoot = [] then ascii "/mnt/nvme" else hostRoot
  let cfg := join hostRoot (ascii "config")
  let bin := join hostRoot (ascii "bin")
  { env := join cfg (ascii "strimserver.env")
    transcode := join bin (ascii "transcode.sh")
    notify := join bin (ascii "notify")
    mediamtxTmpl := join cfg (ascii "mediamtx.yaml.template")
    srtPass := join hostRoot (ascii "srt-passphrase")
    videoDir := join hostRoot (ascii "video-files") }

/-! ## Absolute paths -/

/-- The absolute path of some elements. -/
def absolute (parts : List Octets) : Octets := parts.flatMap (slash :: ·)

/-- A root given by its elements and the slashes behind them. -/
def rootOf (parts : List Octets) (slashes : ℕ) : Octets :=
  absolute (parts ++ List.replicate slashes [])

/-- An element that is not empty and names no directory relative to another. -/
def Ordinary (part : Octets) : Prop :=
  part ≠ [] ∧ part ≠ ascii "." ∧ part ≠ ascii ".." ∧ slash ∉ part

instance (part : Octets) : Decidable (Ordinary part) := by unfold Ordinary; infer_instance

variable {parts : List Octets}

theorem intercalate_slash (part : Octets) (parts : List Octets) :
    [slash].intercalate (part :: parts) = part ++ absolute parts := by
  induction parts generalizing part with
  | nil => rw [intercalate_singleton, absolute, flatMap_nil, append_nil]
  | cons next rest ih =>
    rw [intercalate_cons_cons, ih, absolute, absolute, flatMap_cons, append_assoc]
    rfl

theorem absolute_snoc (name : Octets) :
    absolute (parts ++ [name]) = absolute parts ++ slash :: name := by
  simp [absolute]

section

variable {slashes : ℕ} (ordinary : ∀ part ∈ parts, Ordinary part) (below : parts ≠ [])
include ordinary below

/-- The oracle: cleaning takes the slashes behind the root out. -/
theorem join_rootOf {name : Octets} (whole : Ordinary name) :
    join (rootOf parts slashes) name = absolute (parts ++ [name]) := by
  have fine : ∀ part ∈ parts ++ List.replicate slashes [] ++ [name], part = [] ∨ Ordinary part := by
    simp only [forall_mem_append, forall_mem_singleton]
    exact ⟨⟨fun part mem => .inr (ordinary part mem),
      fun part mem => .inl (eq_of_mem_replicate mem)⟩, .inr whole⟩
  have steps (before : List Octets) {all : List Octets}
      (fine : ∀ part ∈ all, part = [] ∨ Ordinary part) :
      all.foldl (cleanStep true) before = before ++ all.filter (· ≠ []) := by
    induction all generalizing before with
    | nil => rw [foldl_nil, filter_nil, append_nil]
    | cons part rest ih =>
      obtain ⟨here, rest⟩ := forall_mem_cons.mp fine
      rw [foldl_cons, ih _ rest]
      rcases here with rfl | ⟨named, dot, dots, -⟩
      · rfl
      · simp [cleanStep, named, dot, dots]
  have kept : (parts ++ List.replicate slashes [] ++ [name]).filter (· ≠ []) = parts ++ [name] := by
    simpa [whole.1] using fun part mem => (ordinary part mem).1
  obtain ⟨first, rest, rfl⟩ := exists_cons_of_ne_nil below
  have split := splitOn_intercalate slash
    (forall_mem_cons.mpr ⟨not_mem_nil, fun part mem => (fine part mem).elim
      (fun none => none ▸ not_mem_nil) fun whole => whole.2.2.2⟩) (cons_ne_nil [] _)
  rw [intercalate_slash, nil_append] at split
  rw [join, if_neg (fun none => nomatch none.1), if_neg nofun, rootOf, ← absolute_snoc, clean,
    split, foldl_cons]
  show slash :: [slash].intercalate (List.foldl (cleanStep true) [] _) = _
  rw [steps [] fine, kept, nil_append, cons_append, intercalate_slash]
  rfl

/-- The C code: the loop stops at the last octet of the last element. -/
theorem joinPath_rootOf (short : (rootOf parts slashes).length < 4000) {suffix : Octets}
    (name : suffix.length < 95) :
    joinPath (trim (printed (rootOf parts slashes)).reverse).reverse suffix =
      absolute parts ++ slash :: suffix := by
  have root : rootOf parts slashes = absolute parts ++ List.replicate slashes slash := by
    simp [rootOf, absolute, flatMap_replicate]
  have trimmed {b : UInt8} (other : b ≠ slash) (rest : Octets) :
      trim (List.replicate slashes slash ++ b :: rest) = b :: rest := by
    clear root short
    induction slashes with
    | zero =>
      cases rest with
      | nil => rfl
      | cons => exact if_neg other
    | succ slashes ih =>
      rw [replicate_succ, cons_append]
      cases text : List.replicate slashes slash ++ b :: rest with
      | nil => simp at text
      | cons => rw [trim, if_pos rfl, ← text, ih]
  obtain ⟨b, rest, other, reversed⟩ :
      ∃ b rest, b ≠ slash ∧ (absolute parts).reverse = b :: rest := by
    obtain ⟨before, last, rfl⟩ := (eq_nil_or_concat' parts).resolve_left below
    obtain ⟨named, -, -, whole⟩ := ordinary last (by simp)
    obtain ⟨b, rest, eq⟩ := exists_cons_of_ne_nil (reverse_ne_nil_iff.mpr named)
    refine ⟨b, rest ++ slash :: (absolute before).reverse, fun same => whole ?_, ?_⟩
    · rw [← mem_reverse, eq, same]
      exact mem_cons_self
    · rw [absolute_snoc]
      simp [eq]
  rw [printed, take_of_length_le (by omega), root, reverse_append, reverse_replicate, reversed,
    trimmed other, ← reversed, reverse_reverse, joinPath, if_neg, printed, take_of_length_le]
  · rw [root, length_append] at short
    rw [length_append, length_cons]
    omega
  intro same
  rw [same] at reversed
  cases reversed
  exact other rfl

/-- A root with an element gets the oracle's layout, and all of its paths are absolute. -/
theorem layout_of_parts (short : (rootOf parts slashes).length < 4000) :
    strimDefaultLayout (rootOf parts slashes) = defaultLayout (rootOf parts slashes) ∧
      ∀ source ∈ (strimDefaultLayout (rootOf parts slashes)).sources,
      source.head? = some slash := by
  have nested {dir name : Octets} (outer : Ordinary dir) (inner : Ordinary name) :
      join (join (rootOf parts slashes) dir) name = absolute (parts ++ [dir] ++ [name]) := by
    have both := forall_mem_append.mpr ⟨ordinary, forall_mem_singleton.mpr outer⟩
    have cleaned := @join_rootOf _ 0 both (by simp) name inner
    rwa [rootOf, replicate_zero, append_nil, ← join_rootOf ordinary below outer] at cleaned
  have file {suffix : Octets} : suffix.length < 95 → _ := joinPath_rootOf ordinary below short
  obtain ⟨first, rest, rfl⟩ := exists_cons_of_ne_nil below
  rw [strimDefaultLayout, defaultLayout, if_neg nofun, file, file, file, file, file, file, nested,
    nested, nested, nested, join_rootOf ordinary below, join_rootOf ordinary below]
  · simp only [absolute_snoc]
    simp only [append_assoc]
    exact ⟨rfl, by simp [Layout.sources, absolute]; decide⟩
  all_goals decide

end

/-- Of a root that is all slashes the loop leaves one. -/
theorem trim_slashes (slashes : ℕ) : trim (List.replicate (slashes + 1) slash) = [slash] := by
  induction slashes with
  | zero => rfl
  | succ slashes ih => rw [replicate_succ, replicate_succ, trim, if_pos rfl, ← ih]; rfl

/-- **The layout**: a root gets the oracle's layout with absolute paths just if it is not all
slashes, one or more. The empty root stands for the default. -/
theorem layout_agrees (parts : List Octets) (slashes : ℕ) (ordinary : ∀ part ∈ parts, Ordinary part)
    (short : (rootOf parts slashes).length < 4000) :
    (strimDefaultLayout (rootOf parts slashes) = defaultLayout (rootOf parts slashes) ∧
      ∀ source ∈ (strimDefaultLayout (rootOf parts slashes)).sources, source.head? = some slash) ↔
    (parts = [] → slashes = 0) := by
  by_cases below : parts = []
  · subst below
    cases slashes with
    | zero => exact iff_of_true (by decide) fun _ => rfl
    | succ slashes =>
      refine iff_of_false (fun ⟨_, rooted⟩ => ?_) fun none => nomatch none rfl
      have root : rootOf [] (slashes + 1) = List.replicate (slashes + 1) slash := by
        simp [rootOf, absolute, flatMap_replicate]
      -- The environment file is relative.
      have env := rooted _ mem_cons_self
      rw [root] at env short
      rw [strimDefaultLayout, if_neg (by simp), printed, take_of_length_le (by omega),
        reverse_replicate, trim_slashes] at env
      revert env
      decide
  · exact iff_of_true (layout_of_parts ordinary below short) fun none => absurd none below

/-- The root of a deployment, with a slash behind it, and a root of two slashes. -/
theorem layout_agrees_srv :
    strimDefaultLayout (ascii "/srv/") = defaultLayout (ascii "/srv/") ∧
      ¬ (strimDefaultLayout (ascii "//") = defaultLayout (ascii "//") ∧
        ∀ source ∈ (strimDefaultLayout (ascii "//")).sources, source.head? = some slash) :=
  ⟨((layout_agrees [ascii "srv"] 1 (by decide) (by decide)).mpr nofun).1,
    fun agrees => nomatch (layout_agrees [] 2 nofun (by decide)).mp agrees rfl⟩

/-- With the root directory itself the files are looked for where the controller runs. -/
theorem layout_relative :
    (strimDefaultLayout (ascii "/")).env = ascii "config/strimserver.env" ∧
      (defaultLayout (ascii "/")).env = ascii "/config/strimserver.env" := by
  decide

end Strimserver.Oracle
