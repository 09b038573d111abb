import Tr69HostIf.RFC.Faults

/-!
# The effect of a set, component by component

`setValue` outside an update changes three pairs of a cache and its file, each or none: the local store
(`localHalf`), the main store (`mainHalf`) and the non-persistent store (`nonpersistHalf`). `setValue_eq` puts
them together, `setEffect_eq_self_iff` says when nothing has changed and `answer_setEffect` what the parameter
then reads as.
-/

namespace Tr69HostIf.RFC
open Store

/-- A cache and the file behind it. -/
abbrev Backed := Dict Text Text × Option Text

section
variable (env : Env) (msg : MsgData)

/-- The set gets as far as the main store. -/
def Reaches : Prop :=
  nonPersistent msg.paramName.chars = false ∧
    (msg.requestor = .webpa → env.opens.sem = true ∧ env.opens.writeLocal = true)

instance : Decidable (Reaches env msg) := inferInstanceAs (Decidable (_ ∧ _))

/-- The set writes the main store. -/
def Writes (s : XRFCStore) : Prop :=
  Reaches env msg ∧ ¬ Holds s msg.paramName.chars msg.value.chars ∧ env.opens.writeMain = true

instance (s : XRFCStore) : Decidable (Writes env msg s) := inferInstanceAs (Decidable (_ ∧ _))

/-- The set writes the non-persistent store. -/
def WritesNonpersist : Prop :=
  nonPersistent msg.paramName.chars = true ∧ msg.requestor = .rfc ∧ env.opens.writeNonpersist = true

instance : Decidable (WritesNonpersist env msg) := inferInstanceAs (Decidable (_ ∧ _))

/-- The set succeeds in an initialised store. -/
def Accepts (s : XRFCStore) : Prop :=
  WritesNonpersist env msg ∨
    Reaches env msg ∧ (Holds s msg.paramName.chars msg.value.chars ∨ env.opens.writeMain = true)

instance (s : XRFCStore) : Decidable (Accepts env msg s) := inferInstanceAs (Decidable (_ ∨ _))

/-- A cache and its file after the pair is inserted and the file written. -/
def inserted (dict : Dict Text Text) : Backed :=
  let d := dict.insert msg.paramName.chars msg.value.chars
  (d, some (render (env.order.enum d)))

/-- The local cache and file after a set that found them so. -/
def localHalf (p : Backed) : Backed :=
  if nonPersistent msg.paramName.chars = false ∧ msg.requestor = .webpa ∧ env.opens.sem = true then
    let l := loadFileToCache env.opens.readLocal p.2
    if env.opens.writeLocal then inserted env msg l else (l, p.2)
  else p

/-- The main dictionary and file after a set. -/
def mainHalf (s : XRFCStore) : Backed :=
  if Writes env msg s then inserted env msg s.dict else (s.dict, s.files.main)

/-- The non-persistent dictionary and file after a set. -/
def nonpersistHalf (s : XRFCStore) : Backed :=
  if WritesNonpersist env msg then inserted env msg s.nonpersistDict else (s.nonpersistDict, s.files.nonpersist)

/-- An initialised store after a set. -/
def setEffect (s : XRFCStore) : XRFCStore :=
  let m := mainHalf env msg s
  let l := localHalf env msg (s.localDict, s.files.loc)
  let n := nonpersistHalf env msg s
  { s with dict := m.1, localDict := l.1, nonpersistDict := n.1
           files := { s.files with main := m.2, loc := l.2, nonpersist := n.2 } }

end

/-! ## The effect is the one of `setValue` -/

section
variable {env : Env} {msg : MsgData} {s : XRFCStore}

theorem not_reaches (h : nonPersistent msg.paramName.chars = true) : ¬ Reaches env msg := fun hr => by
  rw [hr.1] at h
  cases h

theorem not_writesNonpersist (h : nonPersistent msg.paramName.chars = false) : ¬ WritesNonpersist env msg := fun hw => by
  rw [hw.1] at h
  cases h

theorem setNonpersist_eq (hk : msg.paramName.chars ≠ clearParam) (hn : nonPersistent msg.paramName.chars = true) :
    setNonpersist env msg s =
      (if Accepts env msg s then .noFault else .internalError, setEffect env msg s) := by
  have hr : ¬ Reaches env msg := not_reaches hn
  have hw : ¬ Writes env msg s := fun h => hr h.1
  have hl : ∀ p, localHalf env msg p = p := fun p => if_neg fun h => by
    rw [hn] at h
    cases h.1
  by_cases hq : msg.requestor = .rfc
  · rw [setNonpersist, if_pos hq, writeHashToFile_env env _ hk]
    cases ho : env.opens.writeNonpersist <;>
      simp [Accepts, setEffect, mainHalf, nonpersistHalf, WritesNonpersist, inserted, hr, hw, hl, hn, hq, ho]
  · simp [setNonpersist, Accepts, setEffect, mainHalf, nonpersistHalf, WritesNonpersist, hr, hw, hl, hn, hq]

variable (hk : msg.paramName.chars ≠ clearParam) (hn : nonPersistent msg.paramName.chars = false)
  (hu : s.updateInProgress = false)
include hk hn hu

/-- The main half of a set, after the local one. -/
theorem setMain_eq (hreach : Reaches env msg) {l : Backed} (hl : localHalf env msg (s.localDict, s.files.loc) = l) :
    setMain env msg.paramName.chars msg.value.chars { s with localDict := l.1, files := { s.files with loc := l.2 } } =
      (if Accepts env msg s then .noFault else .internalError, setEffect env msg s) := by
  have hnp : ¬ WritesNonpersist env msg := not_writesNonpersist hn
  have hheld : Holds { s with localDict := l.1, files := { s.files with loc := l.2 } } msg.paramName.chars
      msg.value.chars ↔ Holds s msg.paramName.chars msg.value.chars := Iff.rfl
  rw [setMain_idle_env env (s := { s with localDict := l.1, files := { s.files with loc := l.2 } }) _ hk hu]
  by_cases hh : Holds s msg.paramName.chars msg.value.chars
  · have hw : ¬ Writes env msg s := fun h => h.2.1 hh
    rw [if_pos (hheld.mpr hh)]
    simp [Accepts, setEffect, mainHalf, nonpersistHalf, hnp, hreach, hl, hh, hw]
  · rw [if_neg (mt hheld.mp hh)]
    cases ho : env.opens.writeMain
    · have hw : ¬ Writes env msg s := fun h => by
        rw [h.2.2] at ho
        cases ho
      simp [Accepts, setEffect, mainHalf, nonpersistHalf, hnp, hl, hh, hw, ho]
    · have hw : Writes env msg s := ⟨hreach, hh, ho⟩
      simp [Accepts, setEffect, mainHalf, nonpersistHalf, inserted, withMain, hnp, hreach, hl, hw, ho]

omit hk hu in
/-- The WebPA branch when the semaphore or the local file fails. -/
theorem setEffect_of_webpa_failed (hr : msg.requestor = .webpa)
    (hf : ¬ (env.opens.sem = true ∧ env.opens.writeLocal = true)) :
    ¬ Accepts env msg s ∧ setEffect env msg s = if env.opens.sem then readLocal env s else s := by
  have hnp : ¬ WritesNonpersist env msg := not_writesNonpersist hn
  have hreach : ¬ Reaches env msg := fun h => hf (h.2 hr)
  have hwr : ¬ Writes env msg s := fun h => hreach h.1
  refine ⟨fun h => h.elim hnp fun h => hreach h.1, ?_⟩
  cases hs : env.opens.sem
  · simp [setEffect, mainHalf, nonpersistHalf, localHalf, hnp, hwr, hs]
  · cases hw : env.opens.writeLocal
    · simp [setEffect, mainHalf, nonpersistHalf, localHalf, readLocal, hnp, hwr, hn, hr, hs, hw]
    · exact absurd ⟨hs, hw⟩ hf

end

/-- **A set outside an update.** -/
theorem setValue_eq (env : Env) (msg : MsgData) {s : XRFCStore} (hi : (init env.opens.load s).1 = true)
    (hk : msg.paramName.chars ≠ clearParam) (hu : s.updateInProgress = false) :
    setValue env msg s =
      (if Accepts env msg (init env.opens.load s).2 then .noFault else .internalError,
        setEffect env msg (init env.opens.load s).2) := by
  have hu' : (init env.opens.load s).2.updateInProgress = false := (init_idle env.opens.load s).trans hu
  cases hn : nonPersistent msg.paramName.chars
  · by_cases hr : msg.requestor = .webpa
    · rw [setValue_webpa env msg hi hk hn hr hu]
      by_cases hb : env.opens.sem = true ∧ env.opens.writeLocal = true
      · have hl : ∀ p, localHalf env msg p = inserted env msg (loadFileToCache env.opens.readLocal p.2) :=
          fun p => by rw [localHalf, if_pos ⟨hn, hr, hb.1⟩, if_pos hb.2]
        rw [if_pos hb.1, if_pos hb.2]
        exact setMain_eq hk hn hu' ⟨hn, fun _ => hb⟩ (hl _)
      · obtain ⟨ha, he⟩ := setEffect_of_webpa_failed (s := (init env.opens.load s).2) hn hr hb
        rw [if_neg ha, he]
        cases hs : env.opens.sem
        · rfl
        · rw [if_pos rfl, if_pos rfl, if_neg fun hw => hb ⟨hs, hw⟩]
    · have hl : ∀ p, localHalf env msg p = p := fun p => if_neg fun h => hr h.2.1
      rw [setValue_main env msg hi hk hn hr]
      exact setMain_eq hk hn hu' ⟨hn, fun h => absurd h hr⟩ (hl _)
  · rw [setValue_nonpersist env msg hi hn, setNonpersist_eq hk hn]

/-! ## When nothing changes -/

section
variable {env : Env} {msg : MsgData} {s : XRFCStore}

theorem setEffect_eq_self_iff :
    setEffect env msg s = s ↔
      mainHalf env msg s = (s.dict, s.files.main) ∧
      localHalf env msg (s.localDict, s.files.loc) = (s.localDict, s.files.loc) ∧
      nonpersistHalf env msg s = (s.nonpersistDict, s.files.nonpersist) := by
  constructor
  · intro h
    refine ⟨Prod.ext ?_ ?_, Prod.ext ?_ ?_, Prod.ext ?_ ?_⟩
    · exact congrArg XRFCStore.dict h
    · exact congrArg (fun s => s.files.main) h
    · exact congrArg XRFCStore.localDict h
    · exact congrArg (fun s => s.files.loc) h
    · exact congrArg XRFCStore.nonpersistDict h
    · exact congrArg (fun s => s.files.nonpersist) h
  · rintro ⟨hm, hl, hn⟩
    rw [setEffect, hm, hl, hn]

/-! ## What the parameter then reads as -/

/-- What `getValue` answers for a parameter without a value. -/
def defaultAnswer (s : XRFCStore) (key : Text) : Except FaultCode Text :=
  match s.rfcdefaultsDict.lookup key with
  | some raw => if raw ≠ [] then .ok (cStr raw) else .error .internalError
  | none => .error .internalError

theorem answer_of_raw_nil {key : Text} (h : getRawValue s key = []) : answer s key = defaultAnswer s key := by
  rw [answer, h]
  rfl

/-- The getter finds the given value, not the default. -/
def Visible (msg : MsgData) (s : XRFCStore) : Prop :=
  msg.value.chars ≠ [] ∧ (nonPersistent msg.paramName.chars = true → s.files.rfcSyncDone = true)

instance : Decidable (Visible msg s) := inferInstanceAs (Decidable (_ ∧ _))

/-- The parameter after a set that stored it. -/
theorem answer_of_raw_value {t : XRFCStore} (hd : t.rfcdefaultsDict = s.rfcdefaultsDict)
    (hraw : getRawValue t msg.paramName.chars =
      if nonPersistent msg.paramName.chars = true → s.files.rfcSyncDone = true then msg.value.chars else []) :
    answer t msg.paramName.chars =
      if Visible msg s then .ok msg.value.chars else defaultAnswer s msg.paramName.chars := by
  have hdef : defaultAnswer t msg.paramName.chars = defaultAnswer s msg.paramName.chars := by
    rw [defaultAnswer, defaultAnswer, hd]
  by_cases hsync : nonPersistent msg.paramName.chars = true → s.files.rfcSyncDone = true
  · rw [if_pos hsync] at hraw
    by_cases hv : msg.value.chars = []
    · rw [answer_of_raw_nil (hraw.trans hv), hdef, if_neg fun h : Visible msg s => h.1 hv]
    · rw [answer_of_raw (by rw [hraw]; exact hv), hraw, CString.cStr_chars, if_pos ⟨hv, hsync⟩]
  · rw [if_neg hsync] at hraw
    rw [answer_of_raw_nil hraw, hdef, if_neg fun h : Visible msg s => hsync h.2]

theorem sameSource_setEffect (hn : ¬ WritesNonpersist env msg) : SameSource s (setEffect env msg s) := by
  have h : nonpersistHalf env msg s = (s.nonpersistDict, s.files.nonpersist) := if_neg hn
  exact ⟨rfl, congrArg Prod.fst h, rfl, rfl⟩

/-- A set that does not write the main store leaves every answer from it. -/
theorem answer_setEffect_of_not_writes (hn : ¬ WritesNonpersist env msg) (hw : ¬ Writes env msg s) (key : Text) :
    answer (setEffect env msg s) key = answer s key := by
  have h : mainHalf env msg s = (s.dict, s.files.main) := if_neg hw
  refine (sameSource_setEffect hn).answer_eq ?_
  show (mainHalf env msg s).1.lookup key = s.dict.lookup key
  rw [h]

/-- **What a parameter reads as after a set.** -/
theorem answer_setEffect :
    answer (setEffect env msg s) msg.paramName.chars =
      if Accepts env msg s then
        if Visible msg s then .ok msg.value.chars else defaultAnswer s msg.paramName.chars
      else answer s msg.paramName.chars := by
  by_cases hn : WritesNonpersist env msg
  · have ha : Accepts env msg s := Or.inl hn
    rw [if_pos ha]
    refine answer_of_raw_value rfl ?_
    have hd : (setEffect env msg s).nonpersistDict = s.nonpersistDict.insert msg.paramName.chars msg.value.chars :=
      congrArg Prod.fst (if_pos hn : nonpersistHalf env msg s = _)
    rw [getRawValue, if_pos hn.1, hd, Finmap.lookup_insert, Option.getD_some]
    show (if s.files.rfcSyncDone = true then msg.value.chars else []) = _
    simp only [hn.1, forall_const]
  · by_cases hw : Writes env msg s
    · have ha : Accepts env msg s := Or.inr ⟨hw.1, Or.inr hw.2.2⟩
      rw [if_pos ha]
      refine answer_of_raw_value rfl ?_
      have hd : (setEffect env msg s).dict = s.dict.insert msg.paramName.chars msg.value.chars :=
        congrArg Prod.fst (if_pos hw : mainHalf env msg s = _)
      rw [getRawValue, if_neg (by rw [hw.1.1]; decide), hd, Finmap.lookup_insert, Option.getD_some,
        if_pos (by rw [hw.1.1]; intro h; cases h)]
    · rw [answer_setEffect_of_not_writes hn hw]
      by_cases ha : Accepts env msg s
      · -- the value is accepted without being written, so the store holds it already
        obtain ⟨hr, hh⟩ := ha.resolve_left hn
        have hheld : Holds s msg.paramName.chars msg.value.chars := by
          by_contra hne
          exact hw ⟨hr, hne, hh.resolve_left hne⟩
        have hv : Visible msg s := by
          refine ⟨fun hv => hheld.1 ?_, fun h => ?_⟩
          · rw [hheld.2, hv]
            rfl
          · rw [hr.1] at h
            cases h
        rw [if_pos ha, if_pos hv, hheld.answer_eq]
      · rw [if_neg ha]

/-! ## Two sets of one parameter -/

variable (hn : nonPersistent msg.paramName.chars = false)
include hn

theorem holds_setEffect {v : CString} (hv : v.chars ≠ []) :
    Holds (setEffect env msg s) msg.paramName.chars v.chars ↔
      if Writes env msg s then msg.value = v else Holds s msg.paramName.chars v.chars := by
  have hraw : ∀ t : XRFCStore, getRawValue t msg.paramName.chars = (t.dict.lookup msg.paramName.chars).getD [] :=
    fun t => by rw [getRawValue, if_neg (by rw [hn]; decide)]
  have hd : (setEffect env msg s).dict = (mainHalf env msg s).1 := rfl
  by_cases hw : Writes env msg s
  · have hm : (mainHalf env msg s).1 = s.dict.insert msg.paramName.chars msg.value.chars :=
      congrArg Prod.fst (if_pos hw : mainHalf env msg s = _)
    rw [if_pos hw, Holds, hraw, hd, hm, Finmap.lookup_insert, Option.getD_some, CString.cStr_chars, CString.cStr_chars,
      CString.ext_iff]
    exact ⟨And.right, fun h => ⟨h ▸ hv, h⟩⟩
  · have hm : (mainHalf env msg s).1 = s.dict := congrArg Prod.fst (if_neg hw : mainHalf env msg s = _)
    rw [if_neg hw, Holds, Holds, hraw, hraw, hd, hm]

/-- A second set that does not write the main store leaves things as they were before both when the first one left
the main store, and the two together the local one. -/
theorem setEffect_setEffect_eq_self_iff {env' : Env} {msg' : MsgData} (hname : msg'.paramName = msg.paramName)
    (hw : ¬ Writes env' msg' (setEffect env msg s)) :
    setEffect env' msg' (setEffect env msg s) = s ↔
      mainHalf env msg s = (s.dict, s.files.main) ∧
      localHalf env' msg' (localHalf env msg (s.localDict, s.files.loc)) = (s.localDict, s.files.loc) := by
  have hnp : nonpersistHalf env msg s = (s.nonpersistDict, s.files.nonpersist) := if_neg (not_writesNonpersist hn)
  have hnp' : ∀ t, nonpersistHalf env' msg' t = (t.nonpersistDict, t.files.nonpersist) :=
    fun t => if_neg (not_writesNonpersist (by rw [hname]; exact hn))
  have hm' : mainHalf env' msg' (setEffect env msg s) = mainHalf env msg s := if_neg hw
  have heq : setEffect env' msg' (setEffect env msg s) =
      { s with dict := (mainHalf env msg s).1
               localDict := (localHalf env' msg' (localHalf env msg (s.localDict, s.files.loc))).1
               files := { s.files with
                 main := (mainHalf env msg s).2
                 loc := (localHalf env' msg' (localHalf env msg (s.localDict, s.files.loc))).2 } } := by
    rw [setEffect, hm', hnp']
    simp only [setEffect, hnp]
  rw [heq]
  constructor
  · intro h
    refine ⟨Prod.ext ?_ ?_, Prod.ext ?_ ?_⟩
    · exact congrArg XRFCStore.dict h
    · exact congrArg (fun s => s.files.main) h
    · exact congrArg XRFCStore.localDict h
    · exact congrArg (fun s => s.files.loc) h
  · rintro ⟨hm, hl⟩
    rw [hm, hl]

end

/-- **When a set outside an update succeeds.** -/
theorem setValue_noFault_iff (env : Env) (msg : MsgData) {s : XRFCStore} (hk : msg.paramName.chars ≠ clearParam)
    (hu : s.updateInProgress = false) :
    (setValue env msg s).1 = .noFault ↔
      (init env.opens.load s).1 = true ∧ Accepts env msg (init env.opens.load s).2 := by
  cases hi : (init env.opens.load s).1 with
  | false => simp [setValue_init_failed env msg hi]
  | true =>
      rw [setValue_eq env msg hi hk hu]
      by_cases ha : Accepts env msg (init env.opens.load s).2
      · simp [ha]
      · simp [ha]

end Tr69HostIf.RFC
