import Tr69HostIf.Clib.Decimal
import Tr69HostIf.HostIf
import Tr69HostIf.Store.HashTable
import Tr69HostIf.Store.Scan

/-!
# The manager table

`hostIf_initalize_ConfigManger` of `hostIf_msgHandler.cpp`: the managers and the build flags that leave some
of them out, the hash table made of `g_str_hash` and `g_int_equal`, and the `fscanf` loop that fills it.

* `Confused stray` : two keys that the table does not tell apart, same hash and same first four bytes;
  `stray` is what stands in memory behind the copy of a key;
* `scanWord`, `fscanf` : the conversions `%99s %15s`;
* `loadLine` : the loop body, with the manager of an earlier line in `mgrName`;
* `loadLoop_written` : on a file that is a sequence of pairs the loop runs through the pairs.
-/

namespace Tr69HostIf.Mgr
open Store Clib

/-- `HostIf_ParamMgr_t`, without `HOSTIF_INVALID_Mgr`. -/
inductive ParamMgr
  | deviceMgr | xreMgr | dsMgr | mocaMgr | ethernetMgr | ipMgr | timeMgr | dhcpv4 | interfaceStack
  | telemetryMgr | rdkProfileMgr | storageSrvcMgr
  deriving DecidableEq

/-- The `USE_..._PROFILE` flags of a build. -/
structure Build where
  moca : Bool
  dhcpv4 : Bool
  intfStack : Bool
  storageService : Bool

/-- The names the loop compares with, as far as the build has them. -/
def managers (b : Build) : List (Text × ParamMgr) :=
  [("deviceMgr".toList, .deviceMgr), ("dsMgr".toList, .dsMgr), ("telemetryMgr".toList, .telemetryMgr)] ++
  (if b.moca then [("mocaMgr".toList, .mocaMgr)] else []) ++
  [("xreMgr".toList, .xreMgr), ("ethernetMgr".toList, .ethernetMgr), ("ipMgr".toList, .ipMgr),
    ("timeMgr".toList, .timeMgr)] ++
  (if b.dhcpv4 then [("dhcpv4Mgr".toList, .dhcpv4)] else []) ++
  (if b.intfStack then [("ifStackMgr".toList, .interfaceStack)] else []) ++
  (if b.storageService then [("storageSrvcMgr".toList, .storageSrvcMgr)] else []) ++
  [("rdkProfileMgr".toList, .rdkProfileMgr)]

/-- The manager of a name, `none` for a name the build does not know. -/
def mgrOf (b : Build) (mgr : Text) : Option ParamMgr :=
  ((managers b).find? fun e => strcasecmp mgr e.1).map Prod.snd

/-! ## The hash table -/

/-- A byte as `signed char`, modulo `2 ^ 32`. -/
def signedByte (c : Char) : Nat :=
  if c.toNat % 256 < 128 then c.toNat % 256 else c.toNat % 256 + (2 ^ 32 - 256)

/-- `g_str_hash`. -/
def strHash (t : Text) : Nat := t.foldl (fun h c => (h * 33 + signedByte c) % 2 ^ 32) 5381

section
variable (stray : Text → Text)

/-- The `gint` that `g_int_equal` reads at a key: four bytes from the start of the copy. -/
def firstWord (t : Text) : Text := (t ++ '\x00' :: stray t).take 4

/-- What `g_hash_table_new(g_str_hash, g_int_equal)` takes for one key. -/
def Confused (p q : Text) : Prop := strHash p = strHash q ∧ firstWord stray p = firstWord stray q

instance : DecidableRel (Confused stray) := fun _ _ => instDecidableAnd

theorem confused_equivalence : Equivalence (Confused stray) where
  refl _ := ⟨rfl, rfl⟩
  symm h := ⟨h.1.symm, h.2.symm⟩
  trans h h' := ⟨h.1.trans h'.1, h.2.trans h'.2⟩

/-- `paramMgrhash`. -/
abbrev ParamMgrHash := HashTable Text ParamMgr (Confused stray)

end

/-! ## Reading the file -/

/-- The conversion `%ns`: the word and what is left of the file. -/
def scanWord (n : Nat) (t : Text) : Option (Text × Text) :=
  match t.dropWhile isspace with
  | [] => none
  | c :: r => some (((c :: r).takeWhile fun c => !isspace c).take n,
      (c :: r).drop (((c :: r).takeWhile fun c => !isspace c).take n).length)

/-- `fscanf(fp, "%99s %15s", param, mgr)`; `none` is `EOF`, and a file that ends behind the first word
leaves `mgr` as it was. -/
def fscanf (t : Text) : Option (Text × Option Text × Text) :=
  match scanWord 99 t with
  | none => none
  | some (param, t) =>
      match scanWord 15 t with
      | none => some (param, none, [])
      | some (mgr, t) => some (param, some mgr, t)

/-- The variables of the loop; `mgrName = none` is `HOSTIF_INVALID_Mgr`. -/
structure LoadState (stray : Text → Text) where
  mgrName : Option ParamMgr
  mgr : Text
  table : ParamMgrHash stray

section
variable (b : Build) {stray : Text → Text}

/-- The loop body. -/
def loadLine (s : LoadState stray) (param : Text) (mgr : Option Text) : LoadState stray :=
  let mgr := (mgr.map cStr).getD s.mgr
  let mgrName := (mgrOf b mgr).or s.mgrName
  match mgrName with
  | some m => ⟨some m, mgr, s.table.insert (cStr param) m⟩
  | none => ⟨none, mgr, s.table⟩

/-- The `while` loop; every round takes at least one character of the file. -/
def loadLoop : Nat → Text → LoadState stray → LoadState stray
  | 0, _, s => s
  | n + 1, t, s =>
      match fscanf t with
      | none => s
      | some (param, mgr, t) => loadLoop n t (loadLine b s param mgr)

/-- `hostIf_initalize_ConfigManger` on a file with contents `t`: the table. -/
def hostIf_initalize_ConfigManger (stray : Text → Text) (t : Text) : ParamMgrHash stray :=
  (loadLoop b (t.length + 1) t ⟨none, [], HashTable.empty⟩).table

end

/-! ## Files that are a sequence of pairs -/

/-- A word of the file that a buffer of `n` characters holds. -/
structure IsWord (n : Nat) (t : Text) : Prop where
  ne_nil : t ≠ []
  fits : t.length < n
  plain : ∀ c ∈ t, isspace c = false ∧ c ≠ '\x00'

instance (n : Nat) (t : Text) : Decidable (IsWord n t) :=
  haveI : Decidable (∀ c ∈ t, isspace c = false ∧ c ≠ '\x00') := List.decidableBAll _ t
  decidable_of_iff (t ≠ [] ∧ t.length < n ∧ ∀ c ∈ t, isspace c = false ∧ c ≠ '\x00')
    ⟨fun h => ⟨h.1, h.2.1, h.2.2⟩, fun h => ⟨h.ne_nil, h.fits, h.plain⟩⟩

/-- A pair of the file. -/
structure Line where
  param : Text
  mgr : Text
  param_word : IsWord 100 param
  mgr_word : IsWord 16 mgr

/-- Only white space. -/
def Blank (t : Text) : Prop := ∀ c ∈ t, isspace c = true

/-- Empty, or starting with white space. -/
def Apart (t : Text) : Prop := ∀ c r, t = c :: r → isspace c = true

/-- The text is the sequence of pairs, with any white space between the words. -/
inductive Written : List Line → Text → Prop
  | nil {w : Text} : Blank w → Written [] w
  | cons {w s t : Text} {l : Line} {ls : List Line} : Blank w → Blank s → s ≠ [] → Apart t → Written ls t →
      Written (l :: ls) (w ++ (l.param ++ (s ++ (l.mgr ++ t))))

/-- The lines of a file as the shipped one has them. -/
def fileOf (ls : List Line) : Text := ls.flatMap fun l => l.param ++ ' ' :: (l.mgr ++ ['\n'])

theorem IsWord.cStr {n : Nat} {t : Text} (h : IsWord n t) : cStr t = t :=
  cStr_of_noNul fun hm => (h.plain _ hm).2 rfl

theorem Blank.apart_append {s : Text} (hs : Blank s) (hne : s ≠ []) (t : Text) : Apart (s ++ t) := by
  obtain ⟨c, r, rfl⟩ := List.exists_cons_of_ne_nil hne
  intro d r' h
  rw [List.cons_append, List.cons.injEq] at h
  exact h.1 ▸ hs c List.mem_cons_self

theorem fileOf_written (ls : List Line) : Written ls (fileOf ls) := by
  suffices h : ∀ w, Blank w → Written ls (w ++ fileOf ls) from h [] fun c hc => (by cases hc)
  induction ls with
  | nil =>
      intro w hw
      rw [show fileOf [] = [] from rfl, List.append_nil]
      exact Written.nil hw
  | cons l ls ih =>
      intro w hw
      have hnl : Blank ['\n'] := by simp [Blank, isspace]
      have heq : fileOf (l :: ls) = l.param ++ ([' '] ++ (l.mgr ++ (['\n'] ++ fileOf ls))) := by simp [fileOf]
      rw [heq]
      exact Written.cons hw (by simp [Blank, isspace]) (by simp) (hnl.apart_append (by simp) _) (ih _ hnl)

theorem Blank.dropWhile_append {w : Text} (hw : Blank w) (t : Text) :
    (w ++ t).dropWhile isspace = t.dropWhile isspace := by
  induction w with
  | nil => rfl
  | cons c w ih =>
      rw [List.cons_append, List.dropWhile_cons_of_pos (hw c List.mem_cons_self)]
      exact ih fun d hd => hw d (List.mem_cons_of_mem c hd)

theorem scanWord_blank {w : Text} (hw : Blank w) (n : Nat) : scanWord n w = none := by
  have h := hw.dropWhile_append []
  rw [List.append_nil, List.dropWhile_nil] at h
  rw [scanWord, h]

theorem takeWhile_word {n : Nat} {p : Text} (hp : IsWord n p) {t : Text} (ht : Apart t) :
    (p ++ t).takeWhile (fun c => !isspace c) = p := by
  rw [List.takeWhile_append_of_pos fun c hc => by rw [(hp.plain c hc).1]; rfl]
  cases t with
  | nil => rw [List.takeWhile_nil, List.append_nil]
  | cons c r => rw [List.takeWhile_cons_of_neg (by rw [ht c r rfl]; decide), List.append_nil]

/-- **A word is read back.** -/
theorem scanWord_word {w p t : Text} {n : Nat} (hw : Blank w) (hp : IsWord (n + 1) p) (ht : Apart t) :
    scanWord n (w ++ (p ++ t)) = some (p, t) := by
  obtain ⟨c, r, rfl⟩ := List.exists_cons_of_ne_nil hp.ne_nil
  have hc := (hp.plain c List.mem_cons_self).1
  have htake : (c :: (r ++ t)).takeWhile (fun c => !isspace c) = c :: r := takeWhile_word hp ht
  have hlen : (c :: r).length ≤ n := Nat.lt_succ_iff.mp hp.fits
  rw [scanWord, hw.dropWhile_append, List.cons_append, List.dropWhile_cons_of_neg (by rw [hc]; decide)]
  simp only [htake, List.take_of_length_le hlen]
  rw [← List.cons_append, List.drop_left]

theorem fscanf_line {w s t : Text} (l : Line) (hw : Blank w) (hs : Blank s) (hne : s ≠ []) (ht : Apart t) :
    fscanf (w ++ (l.param ++ (s ++ (l.mgr ++ t)))) = some (l.param, some l.mgr, t) := by
  rw [fscanf, scanWord_word hw l.param_word (hs.apart_append hne _)]
  simp only [scanWord_word hs l.mgr_word ht]

theorem Written.length_le {ls : List Line} {t : Text} (h : Written ls t) : ls.length ≤ t.length := by
  induction h with
  | nil => exact Nat.zero_le _
  | @cons w s t l ls _ _ _ _ _ ih =>
      have hp := List.length_pos_iff.mpr l.param_word.ne_nil
      simp only [List.length_append, List.length_cons]
      omega

theorem loadLoop_written (b : Build) {stray : Text → Text} {ls : List Line} {t : Text} (h : Written ls t) :
    ∀ (n : Nat) (s : LoadState stray), ls.length < n →
      loadLoop b n t s = ls.foldl (fun s l => loadLine b s l.param (some l.mgr)) s := by
  induction h with
  | nil hw =>
      intro n s hn
      obtain ⟨n, rfl⟩ := Nat.exists_eq_add_one_of_ne_zero (Nat.ne_of_gt hn)
      rw [loadLoop, fscanf, scanWord_blank hw]
      rfl
  | @cons w s t l ls hw hs hne ht _ ih =>
      intro n st hn
      obtain ⟨n, rfl⟩ := Nat.exists_eq_add_one_of_ne_zero (Nat.ne_of_gt (Nat.zero_lt_of_lt hn))
      rw [loadLoop, fscanf_line l hw hs hne ht]
      apply ih
      rw [List.length_cons] at hn
      omega

end Tr69HostIf.Mgr
