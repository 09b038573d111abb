import Tr69HostIf.RFC.Agreement

/-!
# What a clear request removes

`Named q k` : the clear request `q` names the key `k`, as the parameter itself or as an object above it.
`clearValue` tests for `q` anywhere in the key instead (`clears`), so it removes exactly what the request
names when no key of the local file holds `q` in its middle: `clearsExactly_iff`, whatever opens succeed.
-/

namespace Tr69HostIf.RFC
open Store

/-- `q` names `k`: it is the parameter, or an object path that `k` lies under. -/
def Named (q k : Text) : Prop := k = q ∨ q.getLast? = some '.' ∧ q <+: k ∧ q ≠ k

instance (q k : Text) : Decidable (Named q k) := inferInstanceAs (Decidable (_ ∨ _))

/-- The local store: what its file holds, which `clearValue` reads again. -/
def localStore (s : XRFCStore) : Dict Text Text := load (s.files.loc.getD [])

/-- `d'` is `d` without the keys of the local store `L` that `q` names. -/
def Removed (q : Text) (L d d' : Dict Text Text) : Prop :=
  ∀ k, d'.lookup k = if k ∈ L ∧ Named q k then none else d.lookup k

/-- The clear request `q` removes what it names from the local store, its cache and the main dictionary,
and nothing else. -/
def ClearsExactly (env : Env) (q : Text) (s : XRFCStore) : Prop :=
  let t := (clearValue env clearParam q s).2
  Removed q (localStore s) (localStore s) (localStore t) ∧
    Removed q (localStore s) (localStore s) t.localDict ∧ Removed q (localStore s) s.dict t.dict

/-- The states in which a clear request does what it says. With the semaphore, the local file is read, every
key it holds that contains the object path `q` starts with it, and what is cleared can be written; without
it nothing is named and the cache is the file's. -/
def Clearable (env : Env) (q : Text) (s : XRFCStore) : Prop :=
  if env.opens.sem then
    (localStore s = ∅ ∨ env.opens.readLocal = true) ∧
      ∀ k ∈ localStore s, clears q k = true → Named q k ∧ env.opens.writeLocal = true
  else s.localDict = localStore s ∧ ∀ k ∈ localStore s, ¬ Named q k

theorem Named.clears {q k : Text} (h : Named q k) : clears q k = true := by
  unfold RFC.clears
  rcases h with rfl | ⟨hl, hp, -⟩
  · simp
  · simp [hl, hp.isInfix]

/-! ## The keys removed -/

section
variable {q : Text} {L d d' : Dict Text Text}

theorem Removed.congr {d'' : Dict Text Text} (h : Removed q L d d') (h' : Removed q L d d'') : d' = d'' :=
  Finmap.ext_lookup fun k => by rw [h k, h' k]

/-- Nothing removed is right when nothing is named. -/
theorem removed_refl_iff : Removed q L d d ↔ ∀ k, k ∈ L → k ∈ d → ¬ Named q k := by
  constructor
  · intro h k hL hd hn
    have := h k
    rw [if_pos ⟨hL, hn⟩, Finmap.lookup_eq_none] at this
    exact this hd
  · intro h k
    by_cases hc : k ∈ L ∧ Named q k
    · rw [if_pos hc, Finmap.lookup_eq_none]
      exact fun hd => h k hc.1 hd hc.2
    · rw [if_neg hc]

/-- Erasing a list of keys is right when those of its keys that the dictionary holds are the named ones. -/
theorem removed_eraseAll {ks : List Text} (h : ∀ k, k ∈ ks ↔ k ∈ L ∧ Named q k) : Removed q L d (eraseAll d ks) := by
  intro k
  rw [lookup_eraseAll]
  simp only [h k]

theorem mem_of_removed_eraseAll {ks : List Text} (hd : Removed q L L (eraseAll L ks)) {k : Text} (hk : k ∈ ks)
    (hL : k ∈ L) : Named q k := by
  have h := hd k
  rw [lookup_eraseAll, if_pos hk] at h
  by_contra hn
  rw [if_neg (fun hc => hn hc.2), eq_comm, Finmap.lookup_eq_none] at h
  exact h hL

end

/-! ## The request -/

section
variable (env : Env) (q : Text) {s : XRFCStore}

theorem clearValue_noSem (hs : env.opens.sem = false) : (clearValue env clearParam q s).2 = s := by
  rw [clearValue, if_neg (by rw [hs]; decide)]

/-- The keys a clear request with the semaphore erases. -/
def erasedKeys (s : XRFCStore) : List Text :=
  ((env.order.enum (loadFileToCache env.opens.readLocal s.files.loc)).map Prod.fst).filter fun k => clears q k

theorem mem_erasedKeys {k : Text} :
    k ∈ erasedKeys env q s ↔ k ∈ loadFileToCache env.opens.readLocal s.files.loc ∧ clears q k = true := by
  rw [erasedKeys, List.mem_filter, mem_keys_enum]

theorem writeHashToFile_clear (ord : Order Text) (ok : Bool) (value : Text) (dict : Dict Text Text)
    (file : Option Text) :
    writeHashToFile ord ok clearParam value dict file =
      (ok, dict, if ok then some (render (ord.enum dict)) else file) := by
  cases ok <;> rfl

variable (hs : env.opens.sem = true)
include hs

/-- A clear request that finds nothing reads the local file again and no more. -/
theorem clearValue_none (hc : erasedKeys env q s = []) :
    (clearValue env clearParam q s).2 =
      { s with localDict := loadFileToCache env.opens.readLocal s.files.loc } := by
  unfold erasedKeys at hc
  rw [clearValue, if_pos hs]
  simp [hc, eraseAll]

/-- A clear request that finds something erases it from both dictionaries and writes what it can. -/
theorem clearValue_some (hc : erasedKeys env q s ≠ []) :
    (clearValue env clearParam q s).2 =
      let l := eraseAll (loadFileToCache env.opens.readLocal s.files.loc) (erasedKeys env q s)
      let d := eraseAll s.dict (erasedKeys env q s)
      { s with localDict := l, dict := d
               files := { s.files with
                 loc := if env.opens.writeLocal then some (render (env.order.enum l)) else s.files.loc
                 main := if env.opens.writeMain then some (render (env.order.enum d)) else s.files.main } } := by
  unfold erasedKeys at hc ⊢
  rw [clearValue, if_pos hs]
  simp only [if_neg hc, writeHashToFile_clear]

/-- With the semaphore, a request is right when the keys it erases are the named ones of the local store and
the file can be written. -/
theorem clearsExactly_sem (hr : loadFileToCache env.opens.readLocal s.files.loc = localStore s)
    (hn : ∀ k ∈ localStore s, clears q k = true → Named q k ∧ env.opens.writeLocal = true) :
    ClearsExactly env q s := by
  have hk : ∀ k, k ∈ erasedKeys env q s ↔ k ∈ localStore s ∧ Named q k := by
    intro k
    rw [mem_erasedKeys, hr]
    exact ⟨fun h => ⟨h.1, (hn k h.1 h.2).1⟩, fun h => ⟨h.1, h.2.clears⟩⟩
  by_cases hc : erasedKeys env q s = []
  · have hno : ∀ k, k ∈ localStore s → ¬ Named q k := fun k hL hnm =>
      List.not_mem_nil (hc ▸ (hk k).mpr ⟨hL, hnm⟩)
    rw [ClearsExactly, clearValue_none env q hs hc]
    refine ⟨removed_refl_iff.mpr fun k hL _ => hno k hL, ?_, removed_refl_iff.mpr fun k hL _ => hno k hL⟩
    show Removed q (localStore s) (localStore s) (loadFileToCache env.opens.readLocal s.files.loc)
    rw [hr]
    exact removed_refl_iff.mpr fun k hL _ => hno k hL
  · obtain ⟨k, hkm⟩ := List.exists_mem_of_ne_nil _ hc
    have hw : env.opens.writeLocal = true := (hn k ((hk k).mp hkm).1 ((hk k).mp hkm).2.clears).2
    rw [ClearsExactly, clearValue_some env q hs hc, hr, hw]
    have hl : load (render (env.order.enum (eraseAll (localStore s) (erasedKeys env q s)))) =
        eraseAll (localStore s) (erasedKeys env q s) :=
      load_render_enum env.order (AllEntries.eraseAll (load_clean _) _)
    refine ⟨?_, removed_eraseAll hk, removed_eraseAll hk⟩
    show Removed q _ _ (load (render (env.order.enum (eraseAll (localStore s) (erasedKeys env q s)))))
    rw [hl]
    exact removed_eraseAll hk

/-- A request right in a state whose local file could not be read had nothing to read. -/
theorem localStore_eq_empty (h : ClearsExactly env q s) (hr : env.opens.readLocal = false) : localStore s = ∅ := by
  have hempty : loadFileToCache env.opens.readLocal s.files.loc = ∅ := by rw [hr]; rfl
  have hc : erasedKeys env q s = [] := by
    rw [List.eq_nil_iff_forall_not_mem]
    intro k hk
    rw [mem_erasedKeys, hempty] at hk
    exact Finmap.notMem_empty hk.1
  have hsame := h.2.1.congr h.1
  rw [clearValue_none env q hs hc] at hsame
  exact hsame.symm.trans hempty

/-- A key that a right request erases is named, and the local file could be written. -/
theorem named_of_clearsExactly (h : ClearsExactly env q s) (hr : env.opens.readLocal = true) {k : Text}
    (hk : k ∈ localStore s) (hq : clears q k = true) : Named q k ∧ env.opens.writeLocal = true := by
  have hload : loadFileToCache env.opens.readLocal s.files.loc = localStore s := by
    rw [hr, loadFileToCache_true, localStore]
  have hmem : k ∈ erasedKeys env q s := by
    rw [mem_erasedKeys, hload]
    exact ⟨hk, hq⟩
  obtain ⟨hfile, hlocal, -⟩ := h
  rw [clearValue_some env q hs (List.ne_nil_of_mem hmem), hload] at hfile hlocal
  have hn : Named q k := mem_of_removed_eraseAll hlocal hmem hk
  refine ⟨hn, ?_⟩
  by_contra hw
  simp only [Bool.not_eq_true] at hw
  simp only [hw, Bool.false_eq_true, if_false] at hfile
  exact removed_refl_iff.mp hfile k hk hk hn

end

/-- **A clear request removes exactly what it names, if and only if no key of the local store merely
contains it, and the local file is read and written.** -/
theorem clearsExactly_iff (env : Env) (q : Text) (s : XRFCStore) : ClearsExactly env q s ↔ Clearable env q s := by
  unfold Clearable
  cases hs : env.opens.sem with
  | true =>
      rw [if_pos rfl]
      constructor
      · intro h
        cases hr : env.opens.readLocal with
        | true => exact ⟨Or.inr rfl, fun k hk hq => named_of_clearsExactly env q hs h hr hk hq⟩
        | false =>
            have hempty := localStore_eq_empty env q hs h hr
            refine ⟨Or.inl hempty, fun k hk => ?_⟩
            rw [hempty] at hk
            exact absurd hk Finmap.notMem_empty
      · rintro ⟨hr, hn⟩
        refine clearsExactly_sem env q hs ?_ hn
        rcases hr with hr | hr
        · cases hread : env.opens.readLocal
          · rw [hr]
            rfl
          · rw [loadFileToCache_true, localStore]
        · rw [hr, loadFileToCache_true, localStore]
  | false =>
      rw [if_neg (by decide), ClearsExactly, clearValue_noSem env q hs]
      constructor
      · rintro ⟨hfile, hlocal, -⟩
        exact ⟨hlocal.congr hfile, fun k hk => removed_refl_iff.mp hfile k hk hk⟩
      · rintro ⟨hsame, hn⟩
        rw [hsame]
        have hno : ∀ d, Removed q (localStore s) d d := fun d => removed_refl_iff.mpr fun k hk _ => hn k hk
        exact ⟨hno _, hno _, hno _⟩

/-- A local store of one setting, below `Device.Time.`. -/
def timeStore : XRFCStore :=
  start (Env.ok byKey) { noFiles with loc := some "Device.Time.NTPServer1=pool\n".toList }

/-- `Time.` is no object path of any key, but it stands inside one. -/
theorem clears_inner_text : ¬ ClearsExactly (Env.ok byKey) "Time.".toList timeStore := by
  intro h
  have hkey := h.2.1 "Device.Time.NTPServer1".toList
  revert hkey
  decide

end Tr69HostIf.RFC
