import Tr69HostIf.DeviceInfo.SetRFC
import Tr69HostIf.RFC.Agreement

/-!
# What the result of an RFC set says about the store

`TellsTruth` : a set that returns `OK` was validated and reads back, any other leaves the store as it was.
`Truthful` says in terms of the request and the store before it when that is so; `tellsTruth_iff`.
-/

namespace Tr69HostIf.DeviceInfo
open Store Clib RFC
open Transport (Value ParamType)

/-- `getValue` of a message of the given type. -/
def getTyped (env : Env) (name : CString) (type : ParamType) (s : XRFCStore) : Except FaultCode TypedValue :=
  (getValue env name s).1.map fun t => putValue type (stringOf t)

/-- The result of the set tells the truth about the store, for a getter in the environment `env'`. -/
def TellsTruth (b : Build) (w : World) (env' : Env) (m : SetMessage) (s : XRFCStore) : Prop :=
  let r := setXRDKCentralComRFC b w m s
  (r.1 = ok → validateParamValue m = .ok () ∧ getTyped env' m.paramName m.value.paramType r.2 = .ok m.value) ∧
    (r.1 ≠ ok → r.2 = s)

/-! ## The condition -/

section
variable (w : World) (env' : Env) (m : SetMessage) (s : XRFCStore)

/-- The getter answers the value of the message. -/
def Reads : Prop := getTyped env' m.paramName m.value.paramType s = .ok m.value

/-- The default of the parameter is read as the value of the message. -/
def DefaultReads : Prop :=
  ∃ d, s.rfcdefaultsDict.lookup m.paramName.chars = some d ∧ d ≠ [] ∧
    putValue m.value.paramType (stringOf d) = m.value

/-- The store the set finds, once initialised. -/
def found : XRFCStore := (init w.env.opens.load s).2

/-- The store takes the value. -/
def Taken : Prop := (init w.env.opens.load s).1 = true ∧ Accepts w.env m.stored (found w s)

instance : Decidable (Taken w m s) := inferInstanceAs (Decidable (_ ∧ _))

/-- The value reads back after the store was asked to take it. -/
def ReadsAfter : Prop :=
  if Taken w m s then
    if Visible m.stored (found w s) then RoundTrips m.value else DefaultReads m (found w s)
  else Reads env' m (found w s)

/-- Being asked to take the value leaves the store as it was: it was initialised, or could not be and lost nothing by
the attempt, and its caches and files already are what the set would make them. -/
def Kept : Prop :=
  found w s = s ∧
    ((init w.env.opens.load s).1 = true →
      mainHalf w.env m.stored s = (s.dict, s.files.main) ∧
      localHalf w.env m.stored (s.localDict, s.files.loc) = (s.localDict, s.files.loc) ∧
      nonpersistHalf w.env m.stored s = (s.nonpersistDict, s.files.nonpersist))

/-- The store takes the time after it was asked to take the value. -/
def TakenAgain (time : UInt32) : Prop :=
  if (init w.env.opens.load s).1 = true then
    Reaches w.again (timeMessage m time) ∧
      (w.again.opens.writeMain = true ∨
        if Writes w.env m.stored (found w s) then m.stored.value = (timeMessage m time).value
        else Holds (found w s) m.paramName.chars (timeMessage m time).value.chars)
  else
    (init w.again.opens.load (found w s)).1 = true ∧
      Accepts w.again (timeMessage m time) (init w.again.opens.load (found w s)).2

/-- Both attempts, to take the value and then the time, leave the store as it was, the second having failed. -/
def KeptAgain (time : UInt32) : Prop :=
  if (init w.env.opens.load s).1 = true then
    found w s = s ∧ mainHalf w.env m.stored s = (s.dict, s.files.main) ∧
      localHalf w.again (timeMessage m time) (localHalf w.env m.stored (s.localDict, s.files.loc)) =
        (s.localDict, s.files.loc)
  else (init w.again.opens.load (found w s)).2 = s

end

/-- When the result of a set tells the truth, by the handling of the parameter. -/
def Truthful (b : Build) (w : World) (env' : Env) (m : SetMessage) (s : XRFCStore) : Prop :=
  if strcasecmp m.paramName.chars clearDB then
    stringToBool (getStringValue m.value).chars = true → Reads env' m (found w s)
  else if strcasecmp m.paramName.chars clearDBEnd ∨ validateParamValue m ≠ .ok () then True
  else match handler b m.paramName.chars with
    | none | some .ms12 => (Taken w m s → ReadsAfter w env' m s) ∧ (¬ Taken w m s → Kept w m s)
    | some .own | some .interval =>
        (w.handled = true → ReadsAfter w env' m s) ∧ (w.handled = false → Kept w m s)
    | some .secureDebug =>
        (Taken w m s ∧ w.handled = true → ReadsAfter w env' m s) ∧
          (¬ (Taken w m s ∧ w.handled = true) → Kept w m s)
    | some .retrieveNow =>
        match w.clock with
        | none => ReadsAfter w env' m s
        | some time =>
            (TakenAgain w m s time → putValue m.value.paramType (timeMessage m time).value = m.value) ∧
              (¬ TakenAgain w m s time → KeptAgain w m s time)

/-! ## Names -/

section
variable {b : Build} {name other : Text}

theorem strcasecmp_congr (h : strcasecmp name other = true) (t : Text) : strcasecmp name t = strcasecmp other t := by
  rw [strcasecmp, beq_iff_eq] at h
  rw [strcasecmp, strcasecmp, h]

theorem handler_congr (h : strcasecmp name other = true) : handler b name = handler b other := by
  unfold handler
  simp only [strcasecmp_congr h]

theorem handlers_sub (b : Build) : (handlers b).Sublist (handlers ⟨true, true⟩) := by
  have hflag : ∀ (c : Bool) (l : List (Text × Handler)), (if c then l else []).Sublist (if true then l else []) := by
    intro c l
    cases c <;> simp
  exact ((((List.Sublist.refl _).append (hflag _ _)).append (List.Sublist.refl _)).append (hflag _ _)).append
    (List.Sublist.refl _)

/-- The names that the proofs tell apart: one evaluation, as reading the texts is what takes the time. -/
theorem handlers_names : ∀ p ∈ handlers ⟨true, true⟩,
    strcasecmp clearDB p.1 = false ∧ strcasecmp clearDBEnd p.1 = false ∧ strcasecmp dosThreshold p.1 = false ∧
      (strcasecmp tracingInterval p.1 = true → p.2 = .interval) ∧
      (p.2 = .interval → p.1 = tracingInterval) ∧ (p.2 = .retrieveNow → p.1 = retrieveNow) := by
  decide +kernel

theorem handler_eq_none (h : ∀ p ∈ handlers ⟨true, true⟩, strcasecmp name p.1 = false) : handler b name = none := by
  rw [handler, List.find?_eq_none.mpr, Option.map_none]
  intro p hp
  rw [h p ((handlers_sub b).subset hp)]
  decide

theorem handler_clearDB : handler b clearDB = none := handler_eq_none fun p hp => (handlers_names p hp).1

theorem handler_clearDBEnd : handler b clearDBEnd = none := handler_eq_none fun p hp => (handlers_names p hp).2.1

theorem handler_dosThreshold : handler b dosThreshold = none := handler_eq_none fun p hp => (handlers_names p hp).2.2.1

theorem mem_of_handler {k : Handler} (h : handler b name = some k) :
    ∃ n, (n, k) ∈ handlers ⟨true, true⟩ ∧ strcasecmp name n = true := by
  obtain ⟨⟨n, k'⟩, hfind, rfl⟩ := Option.map_eq_some_iff.mp h
  have hname := List.find?_some hfind
  exact ⟨n, (handlers_sub b).subset (List.mem_of_find?_eq_some hfind), hname⟩

theorem mem_handlers_interval (b : Build) : (tracingInterval, Handler.interval) ∈ handlers b := by
  unfold handlers
  exact List.mem_append_right _ (.tail _ (.tail _ (.tail _ (.tail _ (.head _)))))

theorem handler_tracingInterval : handler b tracingInterval = some .interval := by
  cases hf : handler b tracingInterval with
  | none =>
      rw [handler, Option.map_eq_none_iff, List.find?_eq_none] at hf
      have hself : strcasecmp tracingInterval tracingInterval = true := by rw [strcasecmp, beq_self_eq_true]
      have hnot := hf _ (mem_handlers_interval b)
      simp only [hself, not_true] at hnot
  | some k =>
      obtain ⟨n, hmem, hname⟩ := mem_of_handler hf
      exact congrArg some ((handlers_names _ hmem).2.2.2.1 hname)

theorem strcasecmp_of_retrieveNow (h : handler b name = some .retrieveNow) : strcasecmp name retrieveNow = true := by
  obtain ⟨n, hmem, hname⟩ := mem_of_handler h
  rw [← (handlers_names _ hmem).2.2.2.2.2 rfl]
  exact hname

theorem strcasecmp_of_interval (h : handler b name = some .interval) : strcasecmp name tracingInterval = true := by
  obtain ⟨n, hmem, hname⟩ := mem_of_handler h
  rw [← (handlers_names _ hmem).2.2.2.2.1 rfl]
  exact hname

/-- `RetrieveNow` is no non-persistent parameter, however its name is spelt. -/
theorem nonPersistent_retrieveNow (h : strcasecmp name retrieveNow = true) : nonPersistent name = false := by
  rw [nonPersistent, decide_eq_false_iff_not]
  intro hin
  have hlow := hin.map Char.toLower
  rw [strcasecmp, beq_iff_eq] at h
  rw [h] at hlow
  revert hlow
  decide +kernel

end

section
variable {b : Build} {m : SetMessage}

/-- Only the two checked parameters fail validation. -/
theorem validateParamValue_of_ne (hi : strcasecmp m.paramName.chars tracingInterval = false)
    (ht : strcasecmp m.paramName.chars dosThreshold = false) : validateParamValue m = .ok () := by
  rw [validateParamValue, if_neg (by rw [hi]; decide), if_neg (by rw [ht]; decide)]

theorem validateParamValue_clearDB (h : strcasecmp m.paramName.chars clearDB = true) :
    validateParamValue m = .ok () := by
  apply validateParamValue_of_ne
  · rw [strcasecmp_congr h]
    decide +kernel
  · rw [strcasecmp_congr h]
    decide +kernel

/-- A value that fails validation meets no handler that would return `OK` for it. -/
theorem handler_of_invalid {f : FaultCode} (h : validateParamValue m = .error f) :
    handler b m.paramName.chars = none ∨
      handler b m.paramName.chars = some .interval ∧ validateInterval m.value = .error f := by
  cases hi : strcasecmp m.paramName.chars tracingInterval with
  | true =>
      rw [validateParamValue, if_pos hi] at h
      exact Or.inr ⟨(handler_congr hi).trans handler_tracingInterval, h⟩
  | false =>
      cases ht : strcasecmp m.paramName.chars dosThreshold with
      | true => exact Or.inl ((handler_congr ht).trans handler_dosThreshold)
      | false =>
          rw [validateParamValue_of_ne hi ht] at h
          cases h

/-- A value for the interval that passes validation passes it again in the handler. -/
theorem validateInterval_of_handler (hh : handler b m.paramName.chars = some .interval)
    (h : validateParamValue m = .ok ()) : validateInterval m.value = .ok () := by
  rw [validateParamValue, if_pos (strcasecmp_of_interval hh)] at h
  exact h

end

/-! ## One set -/

theorem faultNumber_eq_ok_iff (f : FaultCode) : faultNumber f = ok ↔ f = .noFault := by
  cases f <;> simp [faultNumber, ok]

theorem getTyped_of_initDone (env : Env) (name : CString) (type : ParamType) {s : XRFCStore} (h : s.initDone = true) :
    getTyped env name type s = (answer s name.chars).map fun t => putValue type (stringOf t) := by
  rw [getTyped, getValue, init_of_done _ h]
  rfl

theorem stringOf_cStr (t : Text) : stringOf (cStr t) = stringOf t := CString.ext (stringOf t).cStr_chars

theorem defaultAnswer_reads (m : SetMessage) (s : XRFCStore) :
    (defaultAnswer s m.paramName.chars).map (fun t => putValue m.value.paramType (stringOf t)) = .ok m.value ↔
      DefaultReads m s := by
  unfold defaultAnswer DefaultReads
  cases s.rfcdefaultsDict.lookup m.paramName.chars with
  | none => simp [Except.map]
  | some d =>
      by_cases hd : d = []
      · simp [hd, Except.map]
      · simp [hd, Except.map, stringOf_cStr]

section
variable (w : World) (env' : Env) {m : SetMessage} {s : XRFCStore} (hk : m.paramName.chars ≠ clearParam)
  (hu : s.updateInProgress = false)
include hk hu

theorem taken_iff : faultNumber (setValue w.env m.stored s).1 = ok ↔ Taken w m s := by
  rw [faultNumber_eq_ok_iff]
  exact setValue_noFault_iff w.env m.stored hk hu

theorem setValue_of_init (hi : (init w.env.opens.load s).1 = true) :
    (setValue w.env m.stored s).2 = setEffect w.env m.stored (found w s) := by
  rw [setValue_eq w.env m.stored hi hk hu]
  rfl

omit hk hu in
theorem setValue_of_init_failed (hi : (init w.env.opens.load s).1 = false) :
    (setValue w.env m.stored s).2 = found w s := by
  rw [setValue_init_failed w.env m.stored hi]
  rfl

/-- **What reads back after the store was asked to take a value.** -/
theorem reads_setValue_iff : Reads env' m (setValue w.env m.stored s).2 ↔ ReadsAfter w env' m s := by
  unfold ReadsAfter
  cases hi : (init w.env.opens.load s).1 with
  | false =>
      have hnt : ¬ Taken w m s := fun h => absurd h.1 (by rw [hi]; decide)
      rw [setValue_of_init_failed w hi, if_neg hnt]
  | true =>
      have hdone : (found w s).initDone = true := init_initDone_of_fst _ hi
      have hdone' : (setEffect w.env m.stored (found w s)).initDone = true := hdone
      have htaken : Taken w m s ↔ Accepts w.env m.stored (found w s) := ⟨And.right, fun h => ⟨hi, h⟩⟩
      rw [setValue_of_init w hk hu hi, Reads, getTyped_of_initDone env' _ _ hdone']
      rw [show answer (setEffect w.env m.stored (found w s)) m.paramName.chars = _ from answer_setEffect]
      by_cases ha : Accepts w.env m.stored (found w s)
      · rw [if_pos ha, if_pos (htaken.mpr ha)]
        by_cases hv : Visible m.stored (found w s)
        · rw [if_pos hv, if_pos hv, ← putValue_getStringValue_iff m.fits]
          show Except.ok (putValue m.value.paramType (stringOf (getStringValue m.value).chars)) = _ ↔ _
          rw [stringOf_chars, Except.ok.injEq]
        · rw [if_neg hv, if_neg hv]
          exact defaultAnswer_reads m (found w s)
      · rw [if_neg ha, if_neg (mt htaken.mp ha), Reads, getTyped_of_initDone env' _ _ hdone]
        rfl

/-- **When being asked to take a value changes nothing.** -/
theorem setValue_eq_self_iff : (setValue w.env m.stored s).2 = s ↔ Kept w m s := by
  unfold Kept
  cases hi : (init w.env.opens.load s).1 with
  | false =>
      rw [setValue_of_init_failed w hi]
      simp
  | true =>
      rw [setValue_of_init w hk hu hi]
      have hdone : (found w s).initDone = true := init_initDone_of_fst _ hi
      constructor
      · intro h
        have hs : s.initDone = true := (congrArg XRFCStore.initDone h).symm.trans hdone
        have hfound : found w s = s := by rw [found, init_of_done _ hs]
        rw [hfound] at h
        exact ⟨hfound, fun _ => setEffect_eq_self_iff.mp h⟩
      · rintro ⟨hfound, h⟩
        rw [hfound]
        exact setEffect_eq_self_iff.mpr (h rfl)

/-! ## The set of the time -/

omit hk in
theorem setValue_updateInProgress (hk' : m.stored.paramName.chars ≠ clearParam) :
    (setValue w.env m.stored s).2.updateInProgress = false := by
  have hfound : (found w s).updateInProgress = false := (init_idle _ s).trans hu
  cases hi : (init w.env.opens.load s).1 with
  | false => rw [setValue_of_init_failed w hi, hfound]
  | true =>
      rw [setValue_of_init w hk' hu hi]
      exact hfound

variable (hn : nonPersistent m.paramName.chars = false) (time : UInt32)
include hn

theorem takenAgain_iff :
    faultNumber (setValue w.again (timeMessage m time) (setValue w.env m.stored s).2).1 = ok ↔
      TakenAgain w m s time := by
  rw [faultNumber_eq_ok_iff, setValue_noFault_iff w.again (timeMessage m time) hk
    (setValue_updateInProgress w hu hk), TakenAgain]
  cases hi : (init w.env.opens.load s).1 with
  | false =>
      rw [setValue_of_init_failed w hi, if_neg (by decide)]
  | true =>
      have hdone : (setEffect w.env m.stored (found w s)).initDone = true := init_initDone_of_fst _ hi
      have hnp : ¬ WritesNonpersist w.again (timeMessage m time) := not_writesNonpersist hn
      have hheld : Holds (setEffect w.env m.stored (found w s)) m.paramName.chars (timeMessage m time).value.chars ↔ _ :=
        holds_setEffect hn (digits_printNat time.toNat).1
      rw [setValue_of_init w hk hu hi, init_of_done _ hdone, if_pos rfl]
      constructor
      · rintro ⟨-, h⟩
        obtain ⟨hr, h⟩ := h.resolve_left hnp
        exact ⟨hr, h.symm.imp_right hheld.mp⟩
      · rintro ⟨hr, h⟩
        exact ⟨rfl, Or.inr ⟨hr, h.symm.imp_left hheld.mpr⟩⟩

/-- After the time was taken the getter answers the time. -/
theorem getTyped_takenAgain (h : TakenAgain w m s time) :
    getTyped env' m.paramName m.value.paramType
        (setValue w.again (timeMessage m time) (setValue w.env m.stored s).2).2 =
      .ok (putValue m.value.paramType (timeMessage m time).value) := by
  have hu' := setValue_updateInProgress w (m := m) hu hk
  rw [← takenAgain_iff w hk hu hn time, faultNumber_eq_ok_iff, setValue_noFault_iff _ _ hk hu'] at h
  obtain ⟨hi, ha⟩ := h
  have hdone : (setEffect w.again (timeMessage m time)
      (init w.again.opens.load (setValue w.env m.stored s).2).2).initDone = true := init_initDone_of_fst _ hi
  have hvis : Visible (timeMessage m time) (init w.again.opens.load (setValue w.env m.stored s).2).2 :=
    ⟨(digits_printNat time.toNat).1, fun h => absurd (hn.symm.trans h) (by decide)⟩
  rw [setValue_eq w.again (timeMessage m time) hi hk hu', getTyped_of_initDone env' _ _ hdone]
  have hans : answer (setEffect w.again (timeMessage m time)
      (init w.again.opens.load (setValue w.env m.stored s).2).2) (timeMessage m time).paramName.chars = _ :=
    answer_setEffect
  rw [if_pos ha, if_pos hvis] at hans
  rw [show answer _ m.paramName.chars = _ from hans]
  show Except.ok (putValue m.value.paramType (stringOf (timeMessage m time).value.chars)) = _
  rw [stringOf_chars]

/-- When the time was not taken, the store is as before both sets exactly when `KeptAgain`. -/
theorem setValue_setValue_eq_self_iff (h : ¬ TakenAgain w m s time) :
    (setValue w.again (timeMessage m time) (setValue w.env m.stored s).2).2 = s ↔ KeptAgain w m s time := by
  have hu' := setValue_updateInProgress w (m := m) hu hk
  rw [← takenAgain_iff w hk hu hn time, faultNumber_eq_ok_iff, setValue_noFault_iff _ _ hk hu'] at h
  unfold KeptAgain
  cases hi : (init w.env.opens.load s).1 with
  | false =>
      rw [setValue_of_init_failed w hi] at h hu' ⊢
      rw [if_neg (by decide)]
      have hs : s.initDone ≠ true := fun hs => by
        rw [init_of_done _ hs] at hi
        cases hi
      cases hi' : (init w.again.opens.load (found w s)).1 with
      | false => rw [setValue_init_failed _ _ hi']
      | true =>
          have hdone := init_initDone_of_fst _ hi'
          rw [setValue_eq _ _ hi' hk hu']
          refine iff_of_false (fun h => hs ?_) (fun h => hs ?_)
          · rw [← h]
            exact hdone
          · rw [← h]
            exact hdone
  | true =>
      have hdone : (found w s).initDone = true := init_initDone_of_fst _ hi
      have hdone' : (setEffect w.env m.stored (found w s)).initDone = true := hdone
      rw [setValue_of_init w hk hu hi] at h hu' ⊢
      rw [init_of_done _ hdone'] at h
      have hw : ¬ Writes w.again (timeMessage m time) (setEffect w.env m.stored (found w s)) :=
        fun hw => h ⟨rfl, Or.inr ⟨hw.1, Or.inr hw.2.2⟩⟩
      rw [setValue_eq _ _ (by rw [init_of_done _ hdone']) hk hu', init_of_done _ hdone', if_pos rfl]
      have hiff : setEffect w.again (timeMessage m time) (setEffect w.env m.stored (found w s)) = found w s ↔ _ :=
        setEffect_setEffect_eq_self_iff hn rfl hw
      constructor
      · intro heq
        have hs : s.initDone = true := (congrArg XRFCStore.initDone heq).symm.trans hdone
        have hfound : found w s = s := by rw [found, init_of_done _ hs]
        rw [hfound] at heq hiff
        exact ⟨hfound, hiff.mp heq⟩
      · rintro ⟨hfound, hkept⟩
        rw [hfound] at hiff
        show setEffect _ _ (setEffect _ _ (found w s)) = s
        rw [hfound]
        exact hiff.mpr hkept

end

/-! ## The result -/

/-- `clearAll` leaves what the getter reads, once the store is initialised. -/
theorem reads_clearAll_iff (w : World) (env' : Env) (m : SetMessage) {s : XRFCStore} :
    Reads env' m (clearAll w.env s) ↔ Reads env' m (found w s) := by
  unfold clearAll found
  simp only []
  split
  · rfl
  · next hi =>
    have hdone := init_initDone_of_fst w.env.opens.load (s := s) (by simpa using hi)
    split
    · rfl
    · rw [Reads, Reads, getTyped_of_initDone env' _ _ hdone]
      rw [getTyped_of_initDone env' _ _ (by exact hdone)]
      rfl

section
variable {b : Build} {w : World} {env' : Env} {m : SetMessage} {s : XRFCStore}

/-- A validated set, of which `p` says when it returns `OK`. -/
theorem tellsTruth_of_valid {p reads kept : Prop} (hvalid : validateParamValue m = .ok ())
    (hp : (setXRDKCentralComRFC b w m s).1 = ok ↔ p)
    (hr : p → (Reads env' m (setXRDKCentralComRFC b w m s).2 ↔ reads))
    (hk : ¬ p → ((setXRDKCentralComRFC b w m s).2 = s ↔ kept)) :
    TellsTruth b w env' m s ↔ (p → reads) ∧ (¬ p → kept) := by
  unfold TellsTruth
  simp only [Ne, hp]
  constructor
  · rintro ⟨h, h'⟩
    exact ⟨fun hp => (hr hp).mp (h hp).2, fun hp => (hk hp).mp (h' hp)⟩
  · rintro ⟨h, h'⟩
    exact ⟨fun hp => ⟨hvalid, (hr hp).mpr (h hp)⟩, fun hp => (hk hp).mpr (h' hp)⟩

/-- A request that is refused and leaves the store tells the truth. -/
theorem tellsTruth_of_refused (h : setXRDKCentralComRFC b w m s = (nok, s)) : TellsTruth b w env' m s := by
  unfold TellsTruth
  rw [h]
  have hnok : nok ≠ ok := by decide
  exact ⟨fun hok => absurd hok hnok, fun _ => rfl⟩

theorem tellsTruth_clearDB_iff (hdb : strcasecmp m.paramName.chars clearDB = true) :
    TellsTruth b w env' m s ↔
      (stringToBool (getStringValue m.value).chars = true → Reads env' m (found w s)) := by
  have hset : setXRDKCentralComRFC b w m s =
      if stringToBool (getStringValue m.value).chars then (ok, clearAll w.env s) else (nok, s) := by
    rw [setXRDKCentralComRFC, handle, (handler_congr hdb).trans handler_clearDB, setStore, if_pos hdb]
  by_cases hv : stringToBool (getStringValue m.value).chars = true
  · rw [if_pos hv] at hset
    have htruth : TellsTruth b w env' m s ↔ (True → Reads env' m (found w s)) ∧ (¬ True → True) := by
      apply tellsTruth_of_valid (validateParamValue_clearDB hdb)
      · rw [hset]
        exact iff_true_intro rfl
      · rw [hset]
        exact fun _ => reads_clearAll_iff w env' m
      · exact fun h => absurd trivial h
    rw [htruth]
    simp [hv]
  · rw [if_neg hv] at hset
    exact iff_of_true (tellsTruth_of_refused hset) fun h => absurd h hv

variable (hu : s.updateInProgress = false)
include hu

theorem tellsTruth_of_clearDBEnd (hdb : ¬ strcasecmp m.paramName.chars clearDB = true)
    (hend : strcasecmp m.paramName.chars clearDBEnd = true) : TellsTruth b w env' m s := by
  have hidle : reloadCache w.env s = s := by rw [reloadCache, if_neg (by rw [hu]; decide)]
  have hstore : setStore w m s = (nok, s) := by rw [setStore, if_neg hdb, if_pos hend, hidle, ite_self]
  apply tellsTruth_of_refused
  rw [setXRDKCentralComRFC, handle, (handler_congr hend).trans handler_clearDBEnd, hstore]

omit hu in
theorem tellsTruth_of_invalid (hdb : ¬ strcasecmp m.paramName.chars clearDB = true)
    (hend : ¬ strcasecmp m.paramName.chars clearDBEnd = true) {f : FaultCode}
    (hv : validateParamValue m = .error f) : TellsTruth b w env' m s := by
  have hstore : setStore w m s = (nok, s) := by rw [setStore, if_neg hdb, if_neg hend, hv]
  apply tellsTruth_of_refused
  rcases handler_of_invalid (b := b) hv with hh | ⟨hh, hi⟩
  · rw [setXRDKCentralComRFC, handle, hh, hstore]
  · rw [setXRDKCentralComRFC, handle, hh, hstore, hi]

variable (hk : m.paramName.chars ≠ clearParam) (hvalid : validateParamValue m = .ok ())
include hk hvalid

/-- A validated set that leaves what the store's set left, whatever becomes of its result. -/
theorem tellsTruth_set_iff {p : Prop} {code : Int}
    (hset : setXRDKCentralComRFC b w m s = (code, (setValue w.env m.stored s).2)) (hp : code = ok ↔ p) :
    TellsTruth b w env' m s ↔ (p → ReadsAfter w env' m s) ∧ (¬ p → Kept w m s) := by
  apply tellsTruth_of_valid hvalid
  · rw [hset, hp]
  · rw [hset]
    exact fun _ => reads_setValue_iff w env' hk hu
  · rw [hset]
    exact fun _ => setValue_eq_self_iff w hk hu

theorem tellsTruth_retrieveNow_iff (hn : nonPersistent m.paramName.chars = false)
    (hset : setXRDKCentralComRFC b w m s = setRetrieveNow w m (setValue w.env m.stored s).2) :
    TellsTruth b w env' m s ↔
      match w.clock with
      | none => ReadsAfter w env' m s
      | some time =>
          (TakenAgain w m s time → putValue m.value.paramType (timeMessage m time).value = m.value) ∧
            (¬ TakenAgain w m s time → KeptAgain w m s time) := by
  rw [setRetrieveNow] at hset
  cases hc : w.clock with
  | none =>
      rw [hc] at hset
      rw [tellsTruth_set_iff (p := True) hu hk hvalid hset (iff_true_intro rfl)]
      simp
  | some time =>
      rw [hc] at hset
      apply tellsTruth_of_valid hvalid
      · rw [hset]
        exact takenAgain_iff w hk hu hn time
      · intro htaken
        rw [hset, Reads]
        rw [show getTyped _ _ _ _ = _ from getTyped_takenAgain w env' hk hu hn time htaken, Except.ok.injEq]
      · intro htaken
        rw [hset]
        exact setValue_setValue_eq_self_iff w hk hu hn time htaken

end

theorem World.result_eq_ok_iff (w : World) : w.result = ok ↔ w.handled = true := by
  unfold World.result
  cases w.handled <;> decide

/-- A store that has been started without any file. -/
def emptyStore : XRFCStore := start (Env.ok byKey) noFiles

/-- An environment in which the main file cannot be written. -/
def readOnly : Env := ⟨{ writeMain := false }, byKey⟩

/-- `newNTP.Enable` set to true. -/
def ntpMessage : SetMessage :=
  ⟨.ofLiteral "Device.DeviceInfo.X_RDKCENTRAL-COM_RFC.Feature.newNTP.Enable", .plain (.boolean true), trivial, .rfc⟩

end Tr69HostIf.DeviceInfo
