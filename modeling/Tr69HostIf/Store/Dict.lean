import Mathlib.Data.Finmap
import Mathlib.Data.List.Lex
import Mathlib.Data.List.Sort

/-!
# Dictionaries filled by assignment and read in an unspecified order

* `Dict κ β` : finite maps, Mathlib's `Finmap` at a constant value type;
* `lastOf l k` : the value of the last pair of `l` with key `k`;
* `assign d l` : the pairs of `l` assigned one after the other, `lookup_assign` reads it back;
* `Order κ` : an iteration order of a hash table, any listing of the entries with each key once;
  `ofList_enum` : assigning the listed entries gives the dictionary back;
* `eraseAll`, `insertMissing` : the erasing loop and the loop that inserts what is not there;
* `Order.sorted` : the listing by increasing key.
-/

namespace Tr69HostIf.Store

/-- A finite map, as `std::unordered_map` and `std::map` hold one. -/
abbrev Dict (κ β : Type) := Finmap fun _ : κ => β

section
variable {κ β : Type} [DecidableEq κ]

theorem lookup_insert_ite (d : Dict κ β) (a k : κ) (b : β) :
    (d.insert a b).lookup k = if k = a then some b else d.lookup k := by
  split
  · next h => rw [h, Finmap.lookup_insert]
  · next h => exact Finmap.lookup_insert_of_ne d h

theorem lookup_erase_ite (d : Dict κ β) (a k : κ) :
    (d.erase a).lookup k = if k = a then none else d.lookup k := by
  split
  · next h => rw [h, Finmap.lookup_erase]
  · next h => exact Finmap.lookup_erase_ne h

theorem lookup_insert_empty {a k : κ} {b v : β} (h : ((∅ : Dict κ β).insert k v).lookup a = some b) : a = k ∧ b = v := by
  rw [lookup_insert_ite] at h
  split at h
  · next hk => exact ⟨hk, (Option.some.inj h).symm⟩
  · simp at h

/-- Every entry of the dictionary satisfies `P`. -/
def AllEntries (P : κ → β → Prop) (d : Dict κ β) : Prop := ∀ k v, d.lookup k = some v → P k v

section
variable {P : κ → β → Prop} {d : Dict κ β}

theorem allEntries_empty : AllEntries P (∅ : Dict κ β) := fun k v h => by simp at h

theorem allEntries_insert_iff {k : κ} {v : β} :
    AllEntries P (d.insert k v) ↔ P k v ∧ ∀ k' v', k' ≠ k → d.lookup k' = some v' → P k' v' := by
  constructor
  · intro h
    refine ⟨h k v (Finmap.lookup_insert d), fun k' v' hk hl => h k' v' ?_⟩
    rw [lookup_insert_ite, if_neg hk, hl]
  · rintro ⟨h, hd⟩ a b hab
    rw [lookup_insert_ite] at hab
    split at hab
    · next hk =>
      injection hab with hv
      subst hk hv
      exact h
    · next hk => exact hd a b hk hab

theorem AllEntries.insert (hd : AllEntries P d) {k : κ} {v : β} (h : P k v) : AllEntries P (d.insert k v) :=
  allEntries_insert_iff.mpr ⟨h, fun k' v' _ hl => hd k' v' hl⟩

theorem AllEntries.erase (hd : AllEntries P d) (k : κ) : AllEntries P (d.erase k) := by
  intro a b hab
  rw [lookup_erase_ite] at hab
  split at hab
  · cases hab
  · exact hd a b hab

end

/-- The value of the last pair with key `k`. -/
def lastOf : List (κ × β) → κ → Option β
  | [], _ => none
  | p :: l, k => (lastOf l k).or (if k = p.1 then some p.2 else none)

theorem lastOf_append (l l' : List (κ × β)) (k : κ) :
    lastOf (l ++ l') k = (lastOf l' k).or (lastOf l k) := by
  induction l with
  | nil => simp [lastOf]
  | cons p l ih => rw [List.cons_append, lastOf, ih, lastOf, Option.or_assoc]

theorem lastOf_concat (l : List (κ × β)) (p : κ × β) (k : κ) :
    lastOf (l ++ [p]) k = if k = p.1 then some p.2 else lastOf l k := by
  rw [lastOf_append]
  by_cases h : k = p.1
  · simp [lastOf, h]
  · simp [lastOf, h]

theorem lastOf_map {γ : Type} (f : β → γ) (l : List (κ × β)) (k : κ) :
    lastOf (l.map fun p => (p.1, f p.2)) k = (lastOf l k).map f := by
  induction l with
  | nil => rfl
  | cons p l ih =>
      rw [List.map_cons, lastOf, lastOf, ih]
      by_cases hk : k = p.1
      · simp only [if_pos hk]
        cases lastOf l k <;> rfl
      · simp only [if_neg hk, Option.or_none]

theorem mem_of_lastOf {l : List (κ × β)} {k : κ} {v : β} (h : lastOf l k = some v) : (k, v) ∈ l := by
  induction l with
  | nil => cases h
  | cons p l ih =>
      rw [lastOf, Option.or_eq_some_iff] at h
      rcases h with h | ⟨-, h⟩
      · exact List.mem_cons_of_mem p (ih h)
      · split at h
        · next hk =>
          injection h with h
          subst hk h
          exact List.mem_cons_self
        · cases h

theorem lastOf_isSome {l : List (κ × β)} {k : κ} : (lastOf l k).isSome ↔ k ∈ l.map Prod.fst := by
  induction l with
  | nil => simp [lastOf]
  | cons p l ih =>
      rw [lastOf, Option.isSome_or, Bool.or_eq_true, ih, List.map_cons, List.mem_cons, or_comm]
      by_cases h : k = p.1 <;> simp [h]

theorem lastOf_eq_none {l : List (κ × β)} {k : κ} : lastOf l k = none ↔ k ∉ l.map Prod.fst := by
  rw [← lastOf_isSome, Bool.not_eq_true, Option.isSome_eq_false_iff, Option.isNone_iff_eq_none]

theorem lastOf_of_mem {l : List (κ × β)} (hl : (l.map Prod.fst).Nodup) {k : κ} {v : β} (h : (k, v) ∈ l) :
    lastOf l k = some v := by
  obtain ⟨w, hw⟩ := Option.isSome_iff_exists.mp (lastOf_isSome.mpr (List.mem_map_of_mem (f := Prod.fst) h))
  have hm := mem_of_lastOf hw
  have : (k, w) = (k, v) := List.inj_on_of_nodup_map hl hm h rfl
  rw [hw, (Prod.mk.inj this).2]

/-- `d[k] = v` for each pair in turn. -/
def assign (d : Dict κ β) (l : List (κ × β)) : Dict κ β := l.foldl (fun d p => d.insert p.1 p.2) d

/-- The pairs assigned to an empty dictionary. -/
def ofList (l : List (κ × β)) : Dict κ β := assign ∅ l

theorem assign_append (d : Dict κ β) (l l' : List (κ × β)) : assign d (l ++ l') = assign (assign d l) l' :=
  List.foldl_append

theorem lookup_assign (d : Dict κ β) (l : List (κ × β)) (k : κ) :
    (assign d l).lookup k = (lastOf l k).or (d.lookup k) := by
  induction l generalizing d with
  | nil => rfl
  | cons p l ih =>
      rw [assign, List.foldl_cons, ← assign, ih, lookup_insert_ite, lastOf, Option.or_assoc]
      congr 1
      split <;> rfl

theorem lookup_ofList (l : List (κ × β)) (k : κ) : (ofList l).lookup k = lastOf l k := by
  rw [ofList, lookup_assign, Finmap.lookup_empty, Option.or_none]

theorem ofList_append (l l' : List (κ × β)) : ofList (l ++ l') = assign (ofList l) l' :=
  assign_append ∅ l l'

theorem assign_self (d : Dict κ β) (l : List (κ × β)) : assign (assign d l) l = assign d l := by
  refine Finmap.ext_lookup fun k => ?_
  rw [lookup_assign, lookup_assign, ← Option.or_assoc, Option.or_self]

end

/-! ## Iteration orders -/

/-- An iteration order: a listing of the entries of every dictionary, each key once. -/
structure Order (κ : Type) [DecidableEq κ] where
  enum : ∀ {β : Type}, Dict κ β → List (κ × β)
  nodup : ∀ {β : Type} (d : Dict κ β), ((enum d).map Prod.fst).Nodup
  mem : ∀ {β : Type} (d : Dict κ β) (k : κ) (v : β), (k, v) ∈ enum d ↔ d.lookup k = some v

section
variable {κ β : Type} [DecidableEq κ] (ord : Order κ)

theorem lastOf_enum (d : Dict κ β) (k : κ) : lastOf (ord.enum d) k = d.lookup k := by
  cases h : d.lookup k with
  | some v => exact lastOf_of_mem (ord.nodup d) ((ord.mem d k v).mpr h)
  | none =>
      rw [Option.eq_none_iff_forall_not_mem]
      intro v hv
      have := (ord.mem d k v).mp (mem_of_lastOf hv)
      rw [h] at this
      cases this

/-- **Assigning the listed entries gives the dictionary back.** -/
theorem ofList_enum (d : Dict κ β) : ofList (ord.enum d) = d :=
  Finmap.ext_lookup fun k => by rw [lookup_ofList, lastOf_enum]

theorem mem_keys_enum (d : Dict κ β) (k : κ) : k ∈ (ord.enum d).map Prod.fst ↔ k ∈ d := by
  rw [← lastOf_isSome, lastOf_enum, Finmap.lookup_isSome]

end

/-! ## Loops over the entries -/

section
variable {κ β : Type} [DecidableEq κ]

/-- The keys of `ks` erased one after the other. -/
def eraseAll (d : Dict κ β) (ks : List κ) : Dict κ β := ks.foldl (fun d k => d.erase k) d

theorem lookup_eraseAll (d : Dict κ β) (ks : List κ) (k : κ) :
    (eraseAll d ks).lookup k = if k ∈ ks then none else d.lookup k := by
  induction ks generalizing d with
  | nil => simp [eraseAll]
  | cons a ks ih =>
      rw [eraseAll, List.foldl_cons, ← eraseAll, ih, lookup_erase_ite]
      by_cases hk : k ∈ ks
      · simp [hk]
      · by_cases ha : k = a <;> simp [hk, ha]

theorem AllEntries.eraseAll {P : κ → β → Prop} {d : Dict κ β} (hd : AllEntries P d) (ks : List κ) :
    AllEntries P (eraseAll d ks) := by
  intro k v h
  rw [lookup_eraseAll] at h
  split at h
  · cases h
  · exact hd k v h

/-- The value of each pair rewritten by `f`, where `f` gives one. -/
def rewriteAll (f : β → Option β) (d : Dict κ β) (l : List (κ × β)) : Dict κ β :=
  l.foldl (fun d p => match f p.2 with
    | some b => d.insert p.1 b
    | none => d) d

theorem lookup_rewriteAll_of_not_mem (f : β → Option β) (d : Dict κ β) {l : List (κ × β)} {k : κ}
    (hk : k ∉ l.map Prod.fst) : (rewriteAll f d l).lookup k = d.lookup k := by
  induction l generalizing d with
  | nil => rfl
  | cons p l ih =>
      rw [List.map_cons, List.mem_cons, not_or] at hk
      rw [rewriteAll, List.foldl_cons, ← rewriteAll, ih _ hk.2]
      split
      · rw [lookup_insert_ite, if_neg hk.1]
      · rfl

theorem lookup_rewriteAll_enum (ord : Order κ) (f : β → Option β) (d : Dict κ β) (k : κ) :
    (rewriteAll f d (ord.enum d)).lookup k = (d.lookup k).map fun b => (f b).getD b := by
  cases hd : d.lookup k with
  | none =>
      rw [lookup_rewriteAll_of_not_mem, hd]
      · rfl
      · rw [mem_keys_enum, ← Finmap.lookup_isSome, hd]
        simp
  | some b =>
      obtain ⟨l₁, l₂, hl⟩ := List.append_of_mem ((ord.mem d k b).mpr hd)
      have hnodup := ord.nodup d
      rw [hl, List.map_append, List.map_cons, List.nodup_append, List.nodup_cons] at hnodup
      have hk₁ : k ∉ l₁.map Prod.fst := fun h => hnodup.2.2 k h k List.mem_cons_self rfl
      rw [hl, rewriteAll, List.foldl_append, List.foldl_cons, ← rewriteAll, ← rewriteAll,
        lookup_rewriteAll_of_not_mem f _ hnodup.2.1.1]
      cases hf : f b with
      | some b' => simp [hf]
      | none => simp [hf, lookup_rewriteAll_of_not_mem f d hk₁, hd]

/-- The pairs whose key is not there yet, inserted one after the other. -/
def insertMissing (d : Dict κ β) (l : List (κ × β)) : Dict κ β :=
  l.foldl (fun d p => if p.1 ∈ d then d else d.insert p.1 p.2) d

theorem lookup_insertMissing {d : Dict κ β} {l : List (κ × β)} (hl : (l.map Prod.fst).Nodup) (k : κ) :
    (insertMissing d l).lookup k = (d.lookup k).or (lastOf l k) := by
  induction l generalizing d with
  | nil => simp [insertMissing, lastOf]
  | cons p l ih =>
      rw [List.map_cons, List.nodup_cons] at hl
      rw [insertMissing, List.foldl_cons, ← insertMissing, ih hl.2, lastOf]
      by_cases hk : k = p.1
      · have hn : lastOf l k = none := lastOf_eq_none.mpr (by rw [hk]; exact hl.1)
        rw [hn, if_pos hk, Option.or_none, Option.none_or]
        by_cases hd : p.1 ∈ d
        · obtain ⟨v, hv⟩ := Finmap.mem_iff.mp hd
          rw [if_pos hd, hk, hv, Option.some_or]
        · rw [if_neg hd, hk, Finmap.lookup_insert, Finmap.lookup_eq_none.mpr hd, Option.none_or]
      · rw [if_neg hk, Option.or_none]
        congr 1
        split
        · rfl
        · exact Finmap.lookup_insert_of_ne d hk

end

/-! ## The listing by increasing key -/

section
variable {κ : Type} (r : κ → κ → Prop) [DecidableRel r] [Std.Total r] [Std.Antisymm r] [IsTrans κ r]

/-- The keys in increasing order. -/
def sortedKeys {β : Type} (d : Dict κ β) : List κ :=
  Quot.liftOn d.keys.val (fun l => l.insertionSort r) fun l l' h =>
    ((List.perm_insertionSort _ l).trans (h.trans (List.perm_insertionSort _ l').symm)).eq_of_pairwise'
      (List.pairwise_insertionSort _ l) (List.pairwise_insertionSort _ l')

theorem coe_sortedKeys {β : Type} (d : Dict κ β) : (sortedKeys r d : Multiset κ) = d.keys.val := by
  unfold sortedKeys
  induction d.keys.val using Quot.inductionOn with
  | h l => exact Quot.sound (List.perm_insertionSort _ l)

theorem mem_sortedKeys {β : Type} (d : Dict κ β) (k : κ) : k ∈ sortedKeys r d ↔ k ∈ d := by
  rw [← Multiset.mem_coe, coe_sortedKeys, Finset.mem_val, Finmap.mem_keys]

theorem nodup_sortedKeys {β : Type} (d : Dict κ β) : (sortedKeys r d).Nodup := by
  rw [← Multiset.coe_nodup, coe_sortedKeys]
  exact d.keys.nodup

variable [DecidableEq κ]

/-- The entries by increasing key, as `std::map` iterates. -/
def sortedEntries {β : Type} (d : Dict κ β) : List (κ × β) :=
  (sortedKeys r d).filterMap fun k => (d.lookup k).map fun v => (k, v)

theorem mem_sortedEntries {β : Type} (d : Dict κ β) (k : κ) (v : β) :
    (k, v) ∈ sortedEntries r d ↔ d.lookup k = some v := by
  simp only [sortedEntries, List.mem_filterMap, Option.map_eq_some_iff, Prod.mk.injEq]
  constructor
  · rintro ⟨a, -, w, h, rfl, rfl⟩
    exact h
  · intro h
    exact ⟨k, (mem_sortedKeys r d k).mpr (Finmap.mem_of_lookup_eq_some h), v, h, rfl, rfl⟩

theorem map_fst_sortedEntries {β : Type} (d : Dict κ β) : (sortedEntries r d).map Prod.fst = sortedKeys r d := by
  unfold sortedEntries
  rw [List.map_filterMap]
  refine (List.filterMap_congr fun k hk => ?_).trans List.filterMap_some
  obtain ⟨v, hv⟩ := Finmap.mem_iff.mp ((mem_sortedKeys r d k).mp hk)
  rw [hv]
  rfl

/-- The listing by increasing key is an iteration order. -/
def Order.sorted : Order κ where
  enum := sortedEntries r
  nodup d := by rw [map_fst_sortedEntries]; exact nodup_sortedKeys r d
  mem := mem_sortedEntries r

end

end Tr69HostIf.Store
