import Mathlib.Data.List.Induction
import Mathlib.Data.List.Nodup

/-!
# Tries in an array

A binary trie kept in an array of nodes that grows up to a capacity: a node has
the indices of its two children and a symbol, and the root is the first node.
The path of a word is walked from the root, and the missing nodes are appended.

The array stands for a set of paths, the path of each node, which is closed
under prefixes, and for the symbols on them. `Represents` says so, and
`build_represents` says what the trie of a list of words with symbols stands
for: the prefixes of the words, and the symbols on the words themselves.
-/

namespace Strimserver.Library

open Function List

universe u

/-- A node of a binary trie. -/
structure TrieNode (σ : Type u) where
  child0 : Option ℕ
  child1 : Option ℕ
  sym : Option σ

namespace Trie

variable {σ : Type u}

/-- A node without children and symbol. -/
def blank : TrieNode σ := ⟨none, none, none⟩

def setChild (bit : Bool) (next : ℕ) (n : TrieNode σ) : TrieNode σ :=
  match bit with
  | false => { n with child0 := some next }
  | true => { n with child1 := some next }

def setSym (s : σ) (n : TrieNode σ) : TrieNode σ := { n with sym := some s }

def child (nodes : List (TrieNode σ)) (i : ℕ) (bit : Bool) : Option ℕ :=
  nodes[i]?.bind fun n => if bit then n.child1 else n.child0

def sym (nodes : List (TrieNode σ)) (i : ℕ) : Option σ := nodes[i]?.bind TrieNode.sym

/-- Appending a node as a child. -/
def extend (nodes : List (TrieNode σ)) (i : ℕ) (bit : Bool) : List (TrieNode σ) :=
  nodes.modify i (setChild bit nodes.length) ++ [blank]

/-- Walking a path from a node, with the missing nodes appended; the node at its
end. There is no result when the capacity is exceeded. -/
def walkInsert (cap : ℕ) : List (TrieNode σ) → ℕ → List Bool → Option (List (TrieNode σ) × ℕ)
  | nodes, i, [] => some (nodes, i)
  | nodes, i, bit :: bits =>
    match child nodes i bit with
    | some next => walkInsert cap nodes next bits
    | none =>
      if cap ≤ nodes.length then none
      else walkInsert cap (extend nodes i bit) nodes.length bits

/-- Adding a word with its symbol. -/
def insert (cap : ℕ) (nodes : List (TrieNode σ)) (word : List Bool) (s : σ) :
    Option (List (TrieNode σ)) :=
  (walkInsert cap nodes 0 word).map fun walked => walked.1.modify walked.2 (setSym s)

/-- The node at the end of a path. -/
def walk (nodes : List (TrieNode σ)) (i : ℕ) (bits : List Bool) : Option ℕ :=
  bits.foldlM (child nodes) i

/-- The symbol at the end of a path from the root. -/
def lookup (nodes : List (TrieNode σ)) (word : List Bool) : Option σ :=
  (walk nodes 0 word).bind (sym nodes)

/-- The trie of a list of words. -/
def build (cap : ℕ) (words : List (List Bool × σ)) : Option (List (TrieNode σ)) :=
  words.foldlM (fun nodes word => insert cap nodes word.1 word.2) [blank]

/-! ## The fields of the changed nodes -/

/-- The nodes after one is appended: the new one is last. -/
theorem getElem?_extend (nodes : List (TrieNode σ)) (i : ℕ) (bit : Bool) (k : ℕ) :
    (extend nodes i bit)[k]? = if k = nodes.length then some blank
      else if i = k then nodes[k]?.map (setChild bit nodes.length) else nodes[k]? := by
  rw [extend, List.getElem?_append, length_modify, List.getElem?_modify]
  grind

variable {words : List (List Bool × σ)} {nodes : List (TrieNode σ)}

theorem child_extend {i : ℕ} (inside : i < nodes.length) (bit : Bool) (k : ℕ) (b : Bool) :
    child (extend nodes i bit) k b =
      if k = i ∧ b = bit then some nodes.length else child nodes k b := by
  unfold child
  rw [getElem?_extend]
  by_cases same : i = k
  · subst same
    rw [if_neg (Nat.ne_of_lt inside), List.getElem?_eq_getElem inside]
    cases b <;> cases bit <;> simp [setChild]
  have other : k ≠ i := fun eq => same eq.symm
  by_cases last : k = nodes.length
  · subst last
    cases b <;> simp [other, blank]
  · simp [same, last, other]

theorem sym_extend (nodes : List (TrieNode σ)) (i : ℕ) (bit : Bool) (k : ℕ) :
    sym (extend nodes i bit) k = sym nodes k := by
  unfold sym
  rw [getElem?_extend]
  split_ifs with last
  · simp [last, blank]
  · cases nodes[k]? <;> cases bit <;> simp [setChild]
  · rfl

theorem child_modify_setSym (nodes : List (TrieNode σ)) (i : ℕ) (s : σ) (k : ℕ) (b : Bool) :
    child (nodes.modify i (setSym s)) k b = child nodes k b := by
  unfold child
  rw [List.getElem?_modify]
  by_cases same : i = k
  · cases nodes[k]? <;> simp [same, setSym]
  · cases nodes[k]? <;> simp [same]

theorem sym_modify_setSym {i : ℕ} (inside : i < nodes.length) (s : σ) (k : ℕ) :
    sym (nodes.modify i (setSym s)) k = if k = i then some s else sym nodes k := by
  unfold sym
  rw [List.getElem?_modify]
  by_cases same : i = k
  · subst same
    rw [List.getElem?_eq_getElem inside]
    simp [setSym]
  · have other : k ≠ i := fun eq => same eq.symm
    cases nodes[k]? <;> simp [same, other]

/-! ## The paths of an array -/

/-- The nodes stand for these paths, node by node, and for the symbols on them. -/
structure Represents (nodes : List (TrieNode σ)) (paths : List (List Bool))
    (syms : List Bool → Option σ) : Prop where
  length : nodes.length = paths.length
  root : paths[0]? = some []
  nodup : paths.Nodup
  closed : ∀ p bit, p ++ [bit] ∈ paths → p ∈ paths
  child : ∀ i p, paths[i]? = some p → ∀ bit j,
    Trie.child nodes i bit = some j ↔ paths[j]? = some (p ++ [bit])
  sym : ∀ i p, paths[i]? = some p → Trie.sym nodes i = syms p
  outside : ∀ p, p ∉ paths → syms p = none

namespace Represents

variable {nodes : List (TrieNode σ)} {paths : List (List Bool)} {syms : List Bool → Option σ}

theorem blank : Represents ([Trie.blank] : List (TrieNode σ)) [[]] fun _ => none where
  length := rfl
  root := rfl
  nodup := nodup_singleton _
  closed p bit mem := by simp at mem
  child i p found bit j := by
    have none : Trie.child ([Trie.blank] : List (TrieNode σ)) i bit = none := by
      unfold Trie.child
      rcases i with _ | i <;> simp [Trie.blank]
    rw [none]
    rcases j with _ | j <;> simp
  sym i p found := by
    unfold Trie.sym
    rcases i with _ | i <;> simp [Trie.blank]
  outside _ _ := rfl

variable {p : List Bool}

section

variable (r : Represents nodes paths syms)

include r

theorem index_unique {i j : ℕ} (first : paths[i]? = some p) (second : paths[j]? = some p) :
    i = j := by
  obtain ⟨inside, -⟩ := List.getElem?_eq_some_iff.mp first
  exact (List.getElem?_inj inside r.nodup).mp (first.trans second.symm)

theorem mem_of_prefix (mem : p ∈ paths) : ∀ {q : List Bool}, q <+: p → q ∈ paths := by
  induction p using List.reverseRecOn with
  | nil =>
    intro q sub
    rw [prefix_nil.mp sub]
    exact mem
  | append_singleton p bit ih =>
    intro q sub
    rcases prefix_concat_iff.mp sub with rfl | shorter
    · exact mem
    · exact ih (r.closed p bit mem) shorter

variable {i : ℕ} {bit : Bool}

/-- The path that a missing child would have. -/
theorem not_mem_of_child_none (at_ : paths[i]? = some p) (missing : Trie.child nodes i bit = none) :
    p ++ [bit] ∉ paths := by
  intro mem
  obtain ⟨j, found⟩ := mem_iff_getElem?.mp mem
  rw [(r.child i p at_ bit j).mpr found] at missing
  cases missing

/-- A walk ends at the node of its path. -/
theorem walk_eq_some {bits : List Bool} : ∀ {i : ℕ} {p : List Bool}, paths[i]? = some p → ∀ j,
      walk nodes i bits = some j ↔ paths[j]? = some (p ++ bits) := by
  induction bits with
  | nil =>
    intro i p at_ j
    rw [append_nil]
    constructor
    · rintro ⟨⟩
      exact at_
    · intro found
      exact congrArg some (r.index_unique at_ found)
  | cons bit bits ih =>
    intro i p at_ j
    have split : p ++ bit :: bits = (p ++ [bit]) ++ bits := by simp
    rw [walk, foldlM_cons, split]
    cases next : Trie.child nodes i bit with
    | none =>
      refine iff_of_false nofun fun found => r.not_mem_of_child_none at_ next ?_
      exact r.mem_of_prefix (mem_of_getElem? found) (prefix_append _ _)
    | some k => exact ih ((r.child i p at_ bit k).mp next) j

/-- The symbol at the end of a path is the symbol of the path. -/
theorem lookup_eq (word : List Bool) : lookup nodes word = syms word := by
  have ends (j : ℕ) : walk nodes 0 word = some j ↔ paths[j]? = some ([] ++ word) :=
    r.walk_eq_some r.root j
  rw [lookup]
  cases walked : walk nodes 0 word with
  | none =>
    refine (r.outside word fun mem => ?_).symm
    obtain ⟨j, found⟩ := mem_iff_getElem?.mp mem
    rw [(ends j).mpr found] at walked
    cases walked
  | some j => exact r.sym j word ((ends j).mp walked)

omit r in
theorem concat_inj {p q : List Bool} {a b : Bool} (same : p ++ [a] = q ++ [b]) : p = q ∧ a = b := by
  obtain ⟨left, right⟩ := append_inj' same rfl
  exact ⟨left, head_eq_of_cons_eq right⟩

omit r in
theorem getElem?_concat_eq_some {α : Type} {xs : List α} {x y : α} {k : ℕ} :
    (xs ++ [x])[k]? = some y ↔ xs[k]? = some y ∨ (k = xs.length ∧ y = x) := by
  rcases Nat.lt_trichotomy k xs.length with before | rfl | after
  · rw [List.getElem?_append_left before]
    simp [Nat.ne_of_lt before]
  · simp [eq_comm]
  have gone : xs.length + 1 ≤ k := after
  rw [List.getElem?_eq_none (by simpa using gone), List.getElem?_eq_none (by omega)]
  simp [Nat.ne_of_gt after]

theorem child_length (bit : Bool) : Trie.child nodes paths.length bit = none := by
  unfold Trie.child
  rw [← r.length, List.getElem?_eq_none (Nat.le_refl _), Option.bind_none]

theorem sym_length : Trie.sym nodes paths.length = none := by
  unfold Trie.sym
  rw [← r.length, List.getElem?_eq_none (Nat.le_refl _), Option.bind_none]

theorem child_extend_iff (at_ : paths[i]? = some p) (fresh : p ++ [bit] ∉ paths) {k : ℕ}
    {q : List Bool} (found : (paths ++ [p ++ [bit]])[k]? = some q) (b : Bool) (j : ℕ) :
    Trie.child (Trie.extend nodes i bit) k b = some j ↔
      (paths ++ [p ++ [bit]])[j]? = some (q ++ [b]) := by
  obtain ⟨inside, -⟩ := List.getElem?_eq_some_iff.mp at_
  rw [child_extend (r.length ▸ inside), getElem?_concat_eq_some]
  rcases getElem?_concat_eq_some.mp found with among | ⟨rfl, rfl⟩
  · by_cases here : k = i ∧ b = bit
    · obtain ⟨rfl, rfl⟩ := here
      obtain rfl : q = p := Option.some.inj (among.symm.trans at_)
      rw [if_pos ⟨rfl, rfl⟩, r.length, Option.some_inj]
      constructor
      · intro last
        exact .inr ⟨last.symm, rfl⟩
      rintro (old | ⟨last, -⟩)
      · exact absurd (mem_of_getElem? old) fresh
      · exact last.symm
    rw [if_neg here, r.child k q among b j]
    constructor
    · exact .inl
    rintro (old | ⟨-, new⟩)
    · exact old
    · obtain ⟨rfl, rfl⟩ := concat_inj new
      exact absurd ⟨r.index_unique among at_, rfl⟩ here
  -- The last node has no children, and no path extends its path.
  have other : ¬ (paths.length = i ∧ b = bit) := fun here => by omega
  rw [if_neg other, r.child_length]
  constructor
  · rintro ⟨⟩
  rintro (old | ⟨-, new⟩)
  · exact absurd (r.closed _ b (mem_of_getElem? old)) fresh
  · have lengths := congrArg List.length new
    simp at lengths

theorem extend (at_ : paths[i]? = some p) (missing : Trie.child nodes i bit = none) :
    Represents (Trie.extend nodes i bit) (paths ++ [p ++ [bit]]) syms := by
  have fresh := r.not_mem_of_child_none at_ missing
  refine ⟨?_, ?_, ?_, ?_, ?_, ?_, ?_⟩
  · simp [Trie.extend, r.length]
  · exact getElem?_concat_eq_some.mpr (.inl r.root)
  · apply nodup_append.mpr
    refine ⟨r.nodup, nodup_singleton _, ?_⟩
    intro a ha b hb same
    rw [mem_singleton] at hb
    exact fresh (hb ▸ same ▸ ha)
  · intro q b mem
    rcases mem_append.mp mem with among | new
    · exact mem_append_left _ (r.closed q b among)
    · obtain ⟨rfl, -⟩ := concat_inj (mem_singleton.mp new)
      exact mem_append_left _ (mem_of_getElem? at_)
  · intro k q found b j
    exact r.child_extend_iff at_ fresh found b j
  · intro k q found
    rw [sym_extend]
    rcases getElem?_concat_eq_some.mp found with among | ⟨rfl, rfl⟩
    · exact r.sym k q among
    · rw [r.outside _ fresh, r.sym_length]
  · intro q absent
    exact r.outside q fun mem => absent (mem_append_left _ mem)

theorem setSym (at_ : paths[i]? = some p) (s : σ) :
    Represents (nodes.modify i (Trie.setSym s)) paths (Function.update syms p (some s)) := by
  obtain ⟨inside, -⟩ := List.getElem?_eq_some_iff.mp at_
  refine ⟨by simp [r.length], r.root, r.nodup, r.closed, ?_, ?_, ?_⟩
  · intro k q found bit j
    rw [child_modify_setSym]
    exact r.child k q found bit j
  · intro k q found
    rw [sym_modify_setSym (r.length ▸ inside)]
    by_cases same : k = i
    · subst same
      obtain rfl : q = p := Option.some.inj (found.symm.trans at_)
      rw [if_pos rfl, update_self]
    have other : q ≠ p := by
      rintro rfl
      exact same (r.index_unique found at_)
    rw [if_neg same, update_of_ne other]
    exact r.sym k q found
  intro q absent
  have other : q ≠ p := by
    rintro rfl
    exact absent (mem_of_getElem? at_)
  rw [update_of_ne other]
  exact r.outside q absent

end

/-- The walk adds the prefixes of the path, and there is room for them when no
more than the capacity of such paths are distinct. -/
theorem walkInsert (cap : ℕ) (bits : List Bool) :
    ∀ {nodes : List (TrieNode σ)} {paths : List (List Bool)} {i : ℕ} {p : List Bool},
      Represents nodes paths syms → paths[i]? = some p →
      (∀ qs : List (List Bool), qs.Nodup → (∀ q ∈ qs, q ∈ paths ∨ q <+: p ++ bits) →
        qs.length ≤ cap) →
      ∃ nodes' i' paths', Trie.walkInsert cap nodes i bits = some (nodes', i') ∧
        Represents nodes' paths' syms ∧ paths'[i']? = some (p ++ bits) ∧
        ∀ q, q ∈ paths' ↔ q ∈ paths ∨ q <+: p ++ bits := by
  induction bits with
  | nil =>
    intro nodes paths i p r at_ room
    rw [append_nil]
    refine ⟨nodes, i, paths, rfl, r, at_, fun q => ⟨.inl, ?_⟩⟩
    rintro (mem | sub)
    · exact mem
    · exact r.mem_of_prefix (mem_of_getElem? at_) sub
  | cons bit bits ih =>
    intro nodes paths i p r at_ room
    have step : p ++ bit :: bits = (p ++ [bit]) ++ bits := by simp
    rw [step] at room ⊢
    unfold Trie.walkInsert
    rcases next : Trie.child nodes i bit with _ | j
    · have fresh := r.not_mem_of_child_none at_ next
      have enough : paths.length + 1 ≤ cap := by
        refine room ((p ++ [bit]) :: paths) (nodup_cons.mpr ⟨fresh, r.nodup⟩) ?_
        intro q mem
        rcases mem_cons.mp mem with rfl | among
        · exact .inr (prefix_append _ _)
        · exact .inl among
      have notFull : ¬ cap ≤ nodes.length := by
        rw [r.length]
        omega
      have last : (paths ++ [p ++ [bit]])[nodes.length]? = some (p ++ [bit]) := by simp [r.length]
      have absorbed : ∀ q, (q ∈ paths ++ [p ++ [bit]] ∨ q <+: (p ++ [bit]) ++ bits) ↔
          (q ∈ paths ∨ q <+: (p ++ [bit]) ++ bits) := by
        intro q
        rw [mem_append, mem_singleton]
        constructor
        · rintro ((mem | rfl) | sub)
          · exact .inl mem
          · exact .inr (prefix_append _ _)
          · exact .inr sub
        rintro (mem | sub)
        · exact .inl (.inl mem)
        · exact .inr sub
      obtain ⟨nodes', i', paths', walked, r', at', members⟩ :=
        ih (r.extend at_ next) last fun qs nodup sub =>
          room qs nodup fun q mem => (absorbed q).mp (sub q mem)
      refine ⟨nodes', i', paths', ?_, r', at', fun q => (members q).trans (absorbed q)⟩
      simp only [if_neg notFull]
      exact walked
    · exact ih r ((r.child i p at_ bit j).mp next) room

end Represents

/-! ## The trie of a list of words -/

def IsPath (words : List (List Bool × σ)) (q : List Bool) : Prop := q = [] ∨ ∃ w ∈ words, q <+: w.1

theorem isPath_concat {w : List Bool × σ} {q : List Bool} :
    IsPath (words ++ [w]) q ↔ IsPath words q ∨ q <+: w.1 := by
  unfold IsPath
  simp only [mem_append, mem_singleton, or_and_right, exists_or, exists_eq_left, or_assoc]

/-- **What a trie stands for.** With room for the distinct prefixes of the words and no word twice,
the trie is built, its paths are the prefixes and its symbols those of the words. -/
theorem build_represents {cap : ℕ}
    (room : ∀ qs : List (List Bool), qs.Nodup → (∀ q ∈ qs, IsPath words q) → qs.length ≤ cap)
    (distinct : (words.map Prod.fst).Nodup) :
    ∃ nodes paths syms, build cap words = some nodes ∧ Represents nodes paths syms ∧
      (∀ q, q ∈ paths ↔ IsPath words q) ∧ ∀ q s, syms q = some s ↔ (q, s) ∈ words := by
  induction words using List.reverseRecOn with
  | nil => exact ⟨[blank], [[]], fun _ => none, rfl, .blank, by simp [IsPath], by simp⟩
  | append_singleton words w ih =>
    rw [map_append, map_singleton] at distinct
    obtain ⟨distinct, -, apart⟩ := nodup_append.mp distinct
    have fresh : ∀ s, (w.1, s) ∉ words := fun s mem =>
      apart _ (mem_map_of_mem mem) _ (mem_singleton_self _) rfl
    obtain ⟨nodes, paths, syms, built, r, members, symbols⟩ :=
      ih (fun qs nodup sub => room qs nodup fun q mem =>
        isPath_concat.mpr (.inl (sub q mem))) distinct
    obtain ⟨nodes', i', paths', walked, r', at', members'⟩ :=
      Represents.walkInsert cap w.1 r r.root fun qs nodup sub => room qs nodup
        fun q mem => isPath_concat.mpr ((sub q mem).imp_left (members q).mp)
    refine ⟨nodes'.modify i' (setSym w.2), paths', Function.update syms w.1 (some w.2), ?_,
      r'.setSym at' w.2, fun q => ?_, fun q s => ?_⟩
    · have step : Trie.insert cap nodes w.1 w.2 = some (nodes'.modify i' (setSym w.2)) := by
        rw [Trie.insert, walked, Option.map_some]
      unfold build at built ⊢
      rw [foldlM_append, built]
      simp [step]
    · rw [members', members, isPath_concat, nil_append]
    rw [mem_append, mem_singleton]
    by_cases same : q = w.1
    · subst same
      rw [update_self]
      constructor
      · rintro ⟨⟩
        exact .inr rfl
      rintro (mem | new)
      · exact absurd mem (fresh s)
      · exact congrArg (fun w => some w.2) new.symm
    rw [update_of_ne same, symbols]
    constructor
    · exact .inl
    rintro (mem | new)
    · exact mem
    · exact absurd (congrArg Prod.fst new) same

end Trie

end Strimserver.Library
