import Tr69HostIf.Store.Dict
import Tr69HostIf.Store.Lines

/-!
# Files of `key=value` lines

The writers put one `key=value` line per entry and escape nothing; the readers split each line at its
first `=` and skip the lines without one.

* `render l` : the text written for the entries `l`, `entries t` : the entries read from `t`,
  `load t` : the dictionary filled from them;
* `entries_render` : clean entries are read back, `entries_append` : appending to a terminated file
  appends entries;
* `load_clean` : a loaded dictionary is clean, whatever the file holds;
* `mem_load_render` : a clean key is read back even when values are not clean;
* `load_render_enum_iff` : writing a dictionary and loading it gives it back exactly when it is clean;
* `setInto_render_iff`, `setInto_append_iff` : the same for setting one key.
-/

namespace Tr69HostIf.Store

/-- `operator<=` of `std::string`. -/
def keyLE (s t : Text) : Prop := @LE.le Text List.instLE s t

instance : DecidableRel keyLE := fun s t => @List.decidableLE Char instDecidableEqChar Char.instLT Char.instDecidableLt s t

instance : Std.Total keyLE := inferInstanceAs (Std.Total fun s t : Text => @LE.le Text List.instLE s t)

instance : Std.Antisymm keyLE := inferInstanceAs (Std.Antisymm fun s t : Text => @LE.le Text List.instLE s t)

instance : IsTrans Text keyLE := inferInstanceAs (IsTrans Text fun s t : Text => @LE.le Text List.instLE s t)

/-- The order of `std::map<string, ...>`: by increasing key. -/
def byKey : Order Text := Order.sorted keyLE

/-- One written line. -/
def entryLine (p : Text × Text) : Text := p.1 ++ '=' :: p.2 ++ ['\n']

/-- The text written for a list of entries. -/
def render (l : List (Text × Text)) : Text := l.flatMap entryLine

/-- `line.find('=')` and the two `substr` calls. -/
def splitEntry : Text → Option (Text × Text)
  | [] => none
  | c :: t => if c = '=' then some ([], t) else (splitEntry t).map fun p => (c :: p.1, p.2)

/-- The entries of a file, in the order of its lines. -/
def entries (t : Text) : List (Text × Text) := (getlines t).filterMap splitEntry

/-- The dictionary loaded from a file. -/
def load (t : Text) : Dict Text Text := ofList (entries t)

/-- An entry that survives its own line: no `=` in the key and no line break in either part. -/
structure CleanEntry (k v : Text) : Prop where
  key_eq : '=' ∉ k
  key_line : '\n' ∉ k
  val_line : '\n' ∉ v

instance (k v : Text) : Decidable (CleanEntry k v) :=
  decidable_of_iff ('=' ∉ k ∧ '\n' ∉ k ∧ '\n' ∉ v) ⟨fun h => ⟨h.1, h.2.1, h.2.2⟩, fun h => ⟨h.1, h.2, h.3⟩⟩

/-- Every entry of the dictionary is clean. -/
def CleanDict (d : Dict Text Text) : Prop := AllEntries CleanEntry d

theorem splitEntry_eq {k : Text} (hk : '=' ∉ k) (v : Text) : splitEntry (k ++ '=' :: v) = some (k, v) := by
  induction k with
  | nil => simp [splitEntry]
  | cons c k ih =>
      rw [List.mem_cons, not_or] at hk
      rw [List.cons_append, splitEntry, if_neg (Ne.symm hk.1), ih hk.2]
      rfl

theorem splitEntry_some {l : Text} {p : Text × Text} (h : splitEntry l = some p) :
    l = p.1 ++ '=' :: p.2 ∧ '=' ∉ p.1 := by
  induction l generalizing p with
  | nil => cases h
  | cons c l ih =>
      rw [splitEntry] at h
      split at h
      · next hc =>
        injection h with h
        subst hc h
        exact ⟨rfl, List.not_mem_nil⟩
      · next hc =>
        obtain ⟨q, hq, rfl⟩ := Option.map_eq_some_iff.mp h
        obtain ⟨rfl, hn⟩ := ih hq
        refine ⟨rfl, ?_⟩
        rw [List.mem_cons, not_or]
        exact ⟨Ne.symm hc, hn⟩

theorem render_cons (p : Text × Text) (l : List (Text × Text)) : render (p :: l) = entryLine p ++ render l := rfl

theorem render_append (l l' : List (Text × Text)) : render (l ++ l') = render l ++ render l' := List.flatMap_append

theorem render_singleton (p : Text × Text) : render [p] = entryLine p := by simp [render]

theorem terminated_render (l : List (Text × Text)) : Terminated (render l) := by
  induction l with
  | nil => exact terminated_nil
  | cons p l ih =>
      rw [render_cons]
      exact (terminated_append_newline (p.1 ++ '=' :: p.2)).append ih

theorem entries_append {t : Text} (ht : Terminated t) (u : Text) : entries (t ++ u) = entries t ++ entries u := by
  rw [entries, getlines_append ht, List.filterMap_append]
  rfl

theorem entries_entryLine {k v : Text} (h : CleanEntry k v) (u : Text) :
    entries (entryLine (k, v) ++ u) = (k, v) :: entries u := by
  have hl : '\n' ∉ k ++ '=' :: v := by
    simp only [List.mem_append, List.mem_cons, not_or]
    exact ⟨h.key_line, by decide, h.val_line⟩
  rw [entryLine, List.append_assoc, List.singleton_append, entries, getlines_line hl, List.filterMap_cons,
    splitEntry_eq h.key_eq]
  rfl

/-- **Clean entries are read back, in order.** -/
theorem entries_render {l : List (Text × Text)} (h : ∀ p ∈ l, CleanEntry p.1 p.2) : entries (render l) = l := by
  induction l with
  | nil => rfl
  | cons p l ih =>
      rw [render_cons, entries_entryLine (h p List.mem_cons_self),
        ih fun q hq => h q (List.mem_cons_of_mem p hq)]

theorem mem_entries_clean {t : Text} {k v : Text} (h : (k, v) ∈ entries t) : CleanEntry k v := by
  obtain ⟨l, hl, hs⟩ := List.mem_filterMap.mp h
  obtain ⟨rfl, hk⟩ := splitEntry_some hs
  have hn := not_mem_getlines hl
  simp only [List.mem_append, List.mem_cons, not_or] at hn
  exact ⟨hk, hn.1, hn.2.2⟩

theorem mem_of_mem_entries {t k v : Text} (h : (k, v) ∈ entries t) {c : Char} (hc : c ∈ v) : c ∈ t := by
  obtain ⟨l, hl, hs⟩ := List.mem_filterMap.mp h
  obtain ⟨rfl, -⟩ := splitEntry_some hs
  exact mem_of_mem_getlines hl (List.mem_append_right k (List.mem_cons_of_mem '=' hc))

/-- **A loaded dictionary is clean.** -/
theorem load_clean (t : Text) : CleanDict (load t) := by
  intro k v h
  rw [load, lookup_ofList] at h
  exact mem_entries_clean (mem_of_lastOf h)

@[simp] theorem load_nil : load [] = ∅ := rfl

theorem lookup_load (t k : Text) : (load t).lookup k = lastOf (entries t) k := lookup_ofList (entries t) k

theorem load_append {t : Text} (ht : Terminated t) (u : Text) : load (t ++ u) = assign (load t) (entries u) := by
  rw [load, entries_append ht, ofList_append]
  rfl

theorem load_render {l : List (Text × Text)} (h : ∀ p ∈ l, CleanEntry p.1 p.2) : load (render l) = ofList l := by
  rw [load, entries_render h]

theorem load_render_enum (ord : Order Text) {d : Dict Text Text} (hd : CleanDict d) :
    load (render (ord.enum d)) = d := by
  rw [load_render fun p hp => hd p.1 p.2 ((ord.mem d p.1 p.2).mp hp), ofList_enum]

/-- **Writing a dictionary and loading the file gives it back exactly when it is clean.** -/
theorem load_render_enum_iff (ord : Order Text) (d : Dict Text Text) :
    load (render (ord.enum d)) = d ↔ CleanDict d := by
  constructor
  · intro h
    rw [← h]
    exact load_clean _
  · exact load_render_enum ord

/-- A content in which `key` can be set to `value` and that fits its lines otherwise. -/
def Fits (key value : Text) (d : Dict Text Text) : Prop :=
  '\n' ∉ value ∧ ∀ k v, k ≠ key → d.lookup k = some v → CleanEntry k v

/-- `d'` is `d` with `key` set to `value`. -/
def SetInto (key value : Text) (d d' : Dict Text Text) : Prop :=
  d'.lookup key = some value ∧ ∀ k, k ≠ key → d'.lookup k = d.lookup k

theorem setInto_iff {key value : Text} {d d' : Dict Text Text} : SetInto key value d d' ↔ d' = d.insert key value := by
  constructor
  · rintro ⟨hkey, hframe⟩
    refine Finmap.ext_lookup fun k => ?_
    rw [lookup_insert_ite]
    split
    · next hk =>
      subst hk
      exact hkey
    · next hk => exact hframe k hk
  · rintro rfl
    exact ⟨Finmap.lookup_insert d, fun k hk => Finmap.lookup_insert_of_ne d hk⟩

section
variable {key : Text} (hk : '=' ∉ key) (hk' : '\n' ∉ key) (value : Text)

include hk hk'

/-- **A rewrite sets one key exactly when everything fits its line.** -/
theorem setInto_render_iff (ord : Order Text) (d : Dict Text Text) :
    SetInto key value d (load (render (ord.enum (d.insert key value)))) ↔ Fits key value d := by
  rw [setInto_iff, load_render_enum_iff]
  constructor
  · intro h
    obtain ⟨hkey, hrest⟩ := allEntries_insert_iff.mp h
    exact ⟨hkey.val_line, hrest⟩
  · rintro ⟨hv, hrest⟩
    exact allEntries_insert_iff.mpr ⟨⟨hk, hk', hv⟩, hrest⟩

/-- **An appended line sets one key exactly when it is one line.** -/
theorem setInto_append_iff {t : Text} (ht : Terminated t) :
    SetInto key value (load t) (load (t ++ entryLine (key, value))) ↔ Fits key value (load t) := by
  constructor
  · intro h
    exact ⟨(load_clean _ key value h.1).val_line, fun k v _ hv => load_clean t k v hv⟩
  · rintro ⟨hv, -⟩
    have he : entries (entryLine (key, value)) = [(key, value)] := by
      have := entries_entryLine ⟨hk, hk', hv⟩ []
      rwa [List.append_nil] at this
    rw [setInto_iff, load_append ht, he]
    rfl

end

/-- A key that fits a line is read back, whatever the values are. -/
theorem mem_load_render {l : List (Text × Text)} {k v : Text} (hk : '=' ∉ k) (hk' : '\n' ∉ k) (h : (k, v) ∈ l) :
    k ∈ load (render l) := by
  obtain ⟨l₁, l₂, rfl⟩ := List.append_of_mem h
  have hfirst : ∃ w rest, entries (entryLine (k, v) ++ render l₂) = (k, w) :: rest := by
    by_cases hv : '\n' ∈ v
    · obtain ⟨v₁, v₂, rfl, hv₁⟩ := List.eq_append_cons_of_mem hv
      refine ⟨v₁, entries (v₂ ++ '\n' :: render l₂), ?_⟩
      rw [← entries_entryLine ⟨hk, hk', hv₁⟩]
      simp [entryLine]
    · exact ⟨v, entries (render l₂), entries_entryLine ⟨hk, hk', hv⟩ (render l₂)⟩
  obtain ⟨w, rest, hw⟩ := hfirst
  rw [← Finmap.lookup_isSome, lookup_load, lastOf_isSome, render_append, render_cons,
    entries_append (terminated_render l₁), hw]
  simp

theorem cleanDict_empty : CleanDict ∅ := allEntries_empty

theorem CleanDict.insert {d : Dict Text Text} (hd : CleanDict d) {k v : Text} (h : CleanEntry k v) :
    CleanDict (d.insert k v) :=
  AllEntries.insert hd h

end Tr69HostIf.Store
