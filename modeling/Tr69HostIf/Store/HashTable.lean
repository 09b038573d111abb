import Mathlib.Data.List.Induction
import Mathlib.Order.Defs.Unbundled

/-!
# Hash tables with a key comparison of their own

* `HashTable κ β same` : entries whose keys are pairwise not the `same`, where `same` is what the table's
  hash and equality functions make of two keys, any equivalence;
* `HashTable.insert` : an entry whose key is the same keeps its key and takes the value;
* `HashTable.lookup_of_mem` : looking up a stored key gives its own entry;
* `insertAll l`, `mem_insertAll` : a key is stored when no pair before its first one has the same key, with
  the value of the last pair that has (`lastSame`).
-/

namespace Tr69HostIf.Store

section
variable {κ β : Type}

/-- A hash table: its nodes in some order. -/
structure HashTable (κ β : Type) (same : κ → κ → Prop) where
  entries : List (κ × β)
  apart : entries.Pairwise fun a b => ¬same a.1 b.1

namespace HashTable
variable {same : κ → κ → Prop}

/-- The first pair with key `k` comes before every other pair whose key is the same. -/
def First (same : κ → κ → Prop) (l : List (κ × β)) (k : κ) : Prop :=
  ∃ pre v post, l = pre ++ (k, v) :: post ∧ ∀ e ∈ pre, ¬same e.1 k

theorem First.exists_mem {l : List (κ × β)} {k : κ} (h : First same l k) : ∃ v, (k, v) ∈ l := by
  obtain ⟨pre, v, post, rfl, -⟩ := h
  exact ⟨v, List.mem_append_right pre List.mem_cons_self⟩

theorem first_concat {l : List (κ × β)} {p : κ × β} {k : κ} :
    First same (l ++ [p]) k ↔ First same l k ∨ (p.1 = k ∧ ∀ e ∈ l, ¬same e.1 k) := by
  constructor
  · rintro ⟨pre, v, post, h, hpre⟩
    rcases List.eq_nil_or_concat post with rfl | ⟨post, q, rfl⟩
    · obtain ⟨rfl, hp⟩ := List.append_inj' h rfl
      injection hp with hp
      exact Or.inr ⟨by rw [hp], hpre⟩
    · rw [List.concat_eq_append, ← List.cons_append, ← List.append_assoc] at h
      exact Or.inl ⟨pre, v, post, (List.append_inj' h rfl).1, hpre⟩
  · rintro (⟨pre, v, post, rfl, hpre⟩ | ⟨rfl, hl⟩)
    · exact ⟨pre, v, post ++ [p], by simp, hpre⟩
    · exact ⟨l, p.2, [], rfl, hl⟩

theorem exists_first_of_same (hs : Equivalence same) {l : List (κ × β)} {k : κ}
    (h : ∃ e ∈ l, same e.1 k) :
    ∃ a, same a k ∧ First same l a := by
  induction l using List.reverseRecOn with
  | nil =>
      obtain ⟨e, he, -⟩ := h
      cases he
  | append_singleton l p ih =>
      by_cases hl : ∃ e ∈ l, same e.1 k
      · obtain ⟨a, ha, hf⟩ := ih hl
        exact ⟨a, ha, first_concat.mpr (Or.inl hf)⟩
      · have hp : same p.1 k := by
          obtain ⟨e, he, hk⟩ := h
          rcases List.mem_append.mp he with he | he
          · exact absurd ⟨e, he, hk⟩ hl
          · rwa [← List.mem_singleton.mp he]
        exact ⟨p.1, hp, first_concat.mpr (Or.inr ⟨rfl, fun e he hk => hl ⟨e, he, hs.trans hk hp⟩⟩)⟩

variable [DecidableRel same]

/-- The table without entries. -/
def empty : HashTable κ β same := ⟨[], List.Pairwise.nil⟩

/-- The keys, in the order of the nodes. -/
def keys (t : HashTable κ β same) : List κ := t.entries.map Prod.fst

/-- The value at the node whose key is the same. -/
def lookup (t : HashTable κ β same) (k : κ) : Option β := (t.entries.find? fun e => same e.1 k).map Prod.snd

/-- The entries after `v` is stored at `k`: a node whose key is the same keeps its key. -/
def store (same : κ → κ → Prop) [DecidableRel same] (k : κ) (v : β) (l : List (κ × β)) : List (κ × β) :=
  if ∃ e ∈ l, same e.1 k then l.map fun e => if same e.1 k then (e.1, v) else e else l ++ [(k, v)]

theorem apart_store {l : List (κ × β)} (h : l.Pairwise fun a b => ¬same a.1 b.1) (k : κ) (v : β) :
    (store same k v l).Pairwise fun a b => ¬same a.1 b.1 := by
  unfold store
  split
  · rw [List.pairwise_map]
    apply h.imp
    intro a b hab
    have key : ∀ e : κ × β, (if same e.1 k then (e.1, v) else e).1 = e.1 := by
      intro e
      split <;> rfl
    rwa [key a, key b]
  · next hno =>
    rw [List.pairwise_append]
    refine ⟨h, List.pairwise_singleton _ _, ?_⟩
    intro a ha b hb
    rw [List.mem_singleton.mp hb]
    exact fun hs => hno ⟨a, ha, hs⟩

/-- Store `v` at `k`. -/
def insert (t : HashTable κ β same) (k : κ) (v : β) : HashTable κ β same :=
  ⟨store same k v t.entries, apart_store t.apart k v⟩

/-- Store the pairs one after the other. -/
def insertAll (l : List (κ × β)) (t : HashTable κ β same) : HashTable κ β same :=
  l.foldl (fun t p => t.insert p.1 p.2) t

theorem mem_store {l : List (κ × β)} {k a : κ} {v b : β} :
    (a, b) ∈ store same k v l ↔
      (same a k ∧ b = v ∧ ∃ w, (a, w) ∈ l) ∨ (¬same a k ∧ (a, b) ∈ l) ∨
        (a = k ∧ b = v ∧ ∀ e ∈ l, ¬same e.1 k) := by
  unfold store
  split
  · next h =>
    obtain ⟨e, he, hs⟩ := h
    rw [List.mem_map]
    constructor
    · rintro ⟨f, hf, hfe⟩
      split at hfe
      · next hk =>
        injection hfe with ha hb
        subst ha hb
        exact Or.inl ⟨hk, rfl, f.2, hf⟩
      · next hk =>
        subst hfe
        exact Or.inr (Or.inl ⟨hk, hf⟩)
    · rintro (⟨hk, rfl, w, hw⟩ | ⟨hk, hb⟩ | ⟨-, -, hno⟩)
      · exact ⟨(a, w), hw, if_pos hk⟩
      · exact ⟨(a, b), hb, if_neg hk⟩
      · exact absurd hs (hno e he)
  · next h =>
    have hno : ∀ e ∈ l, ¬same e.1 k := fun e he hs => h ⟨e, he, hs⟩
    rw [List.mem_append, List.mem_singleton, Prod.mk.injEq]
    constructor
    · rintro (hab | ⟨rfl, rfl⟩)
      · exact Or.inr (Or.inl ⟨hno _ hab, hab⟩)
      · exact Or.inr (Or.inr ⟨rfl, rfl, hno⟩)
    · rintro (⟨hk, -, w, hw⟩ | ⟨-, hab⟩ | ⟨rfl, rfl, -⟩)
      · exact absurd hk (hno _ hw)
      · exact Or.inl hab
      · exact Or.inr ⟨rfl, rfl⟩

/-- The value of the last pair with the same key. -/
def lastSame (same : κ → κ → Prop) [DecidableRel same] (l : List (κ × β)) (k : κ) : Option β :=
  (l.filter fun e => same e.1 k).getLast?.map Prod.snd

theorem lastSame_concat (l : List (κ × β)) (p : κ × β) (k : κ) :
    lastSame same (l ++ [p]) k = if same p.1 k then some p.2 else lastSame same l k := by
  unfold lastSame
  rw [List.filter_append]
  by_cases h : same p.1 k
  · simp [h]
  · simp [h]

theorem lastSame_append (l l' : List (κ × β)) (k : κ) :
    lastSame same (l ++ l') k = (lastSame same l' k).or (lastSame same l k) := by
  induction l' using List.reverseRecOn with
  | nil => simp [lastSame]
  | append_singleton l' p ih =>
      rw [← List.append_assoc, lastSame_concat, lastSame_concat, ih]
      split <;> rfl

theorem lastSame_eq_none {l : List (κ × β)} {k : κ} : lastSame same l k = none ↔ ∀ e ∈ l, ¬same e.1 k := by
  simp [lastSame]

section
variable (hs : Equivalence same)
include hs

/-- **What is stored.** -/
theorem mem_insertAll {l : List (κ × β)} {k : κ} {v : β} :
    (k, v) ∈ (insertAll l (empty : HashTable κ β same)).entries ↔ First same l k ∧ lastSame same l k = some v := by
  induction l using List.reverseRecOn generalizing k v with
  | nil =>
      have hno : ¬First same ([] : List (κ × β)) k := by
        rintro h
        obtain ⟨v, hv⟩ := h.exists_mem
        cases hv
      exact ⟨fun h => (by cases h), fun h => absurd h.1 hno⟩
  | append_singleton l p ih =>
      have stored : ∀ a, (∃ w, (a, w) ∈ (insertAll l (empty : HashTable κ β same)).entries) ↔ First same l a := by
        intro a
        constructor
        · rintro ⟨w, hw⟩
          exact (ih.mp hw).1
        · intro hf
          obtain ⟨w, hw⟩ := hf.exists_mem
          have hsome : lastSame same l a ≠ none := fun hn => lastSame_eq_none.mp hn _ hw (hs.refl a)
          obtain ⟨u, hu⟩ := Option.ne_none_iff_exists'.mp hsome
          exact ⟨u, ih.mpr ⟨hf, hu⟩⟩
      have fresh : (∀ e ∈ (insertAll l (empty : HashTable κ β same)).entries, ¬same e.1 p.1) ↔
          ∀ e ∈ l, ¬same e.1 p.1 := by
        constructor
        · intro h e he hk
          obtain ⟨a, ha, hf⟩ := exists_first_of_same hs ⟨e, he, hk⟩
          obtain ⟨w, hw⟩ := (stored a).mpr hf
          exact h _ hw ha
        · rintro h ⟨a, w⟩ he hk
          obtain ⟨u, hu⟩ := (ih.mp he).1.exists_mem
          exact h _ hu hk
      have step : (insertAll (l ++ [p]) (empty : HashTable κ β same)).entries =
          store same p.1 p.2 (insertAll l (empty : HashTable κ β same)).entries := by
        unfold insertAll
        rw [List.foldl_append]
        rfl
      rw [step, mem_store, stored, fresh, ih, first_concat, lastSame_concat]
      by_cases hk : same p.1 k
      · have hk' : same k p.1 := hs.symm hk
        have hany : (∀ e ∈ l, ¬same e.1 p.1) ↔ ∀ e ∈ l, ¬same e.1 k :=
          ⟨fun h e he h' => h e he (hs.trans h' hk'), fun h e he h' => h e he (hs.trans h' hk)⟩
        rw [if_pos hk, hany, Option.some.injEq, eq_comm (a := v), eq_comm (a := k)]
        tauto
      · have hk' : ¬same k p.1 := fun h => hk (hs.symm h)
        have hne : p.1 ≠ k := fun h => hk (h ▸ hs.refl _)
        have hne' : k ≠ p.1 := Ne.symm hne
        rw [if_neg hk]
        tauto

theorem lookup_of_mem {t : HashTable κ β same} {e : κ × β} (he : e ∈ t.entries) : t.lookup e.1 = some e.2 := by
  obtain ⟨l, hl⟩ := t
  unfold lookup
  simp only at he ⊢
  induction l with
  | nil => cases he
  | cons a l ih =>
      rw [List.pairwise_cons] at hl
      rcases List.mem_cons.mp he with rfl | he
      · rw [List.find?_cons_of_pos (by simpa using hs.refl e.1)]
        rfl
      · rw [List.find?_cons_of_neg (by simpa using hl.1 e he)]
        exact ih hl.2 he

end

end HashTable
end

end Tr69HostIf.Store
