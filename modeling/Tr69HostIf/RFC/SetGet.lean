import Tr69HostIf.RFC.Agreement
import Tr69HostIf.RFC.Faults
import Tr69HostIf.Transport.Message

/-!
# A set followed by a get

`getString` is `getValue` of a message of string type, whose `putValue` copies the answer into the message
buffer. After a successful set of a persistent parameter outside an update the parameter reads back as it was
set, unless the value was empty: the getter takes an empty value for a missing one and falls back on
`rfcdefaults`. `setThenGet_iff` says exactly when it reads back; `set_frame` that no other parameter changes.
-/

namespace Tr69HostIf.RFC
open Store
open Transport (maxParamLen)

/-- `putValue` into a message of string type: `strcpy_s` leaves the buffer empty when the text does not fit. -/
def putString (t : Text) : Text := if t.length < maxParamLen then t else []

/-- `getValue` of a message of string type. -/
def getString (env : Env) (name : CString) (s : XRFCStore) : Except FaultCode Text :=
  (getValue env name s).1.map putString

/-- If the set succeeds, the parameter reads back as it was set and every other one as before. -/
def SetThenGet (env env' : Env) (msg : MsgData) (s : XRFCStore) : Prop :=
  let r := setValue env msg s
  r.1 = .noFault →
    getString env' msg.paramName r.2 = .ok msg.value.chars ∧
      ∀ name : CString, name ≠ msg.paramName → getString env' name r.2 = getString env name s

/-- Every open that the set of an empty value needs succeeds. -/
def Writable (env : Env) (msg : MsgData) (s : XRFCStore) : Prop :=
  (init env.opens.load s).1 = true ∧ env.opens.writeMain = true ∧
    (msg.requestor = .webpa → env.opens.sem = true ∧ env.opens.writeLocal = true)

/-- `rfcdefaults` has a text for the parameter that leaves the message buffer empty. -/
def DefaultReadsEmpty (env : Env) (key : Text) (s : XRFCStore) : Prop :=
  ∃ t, (init env.opens.load s).2.rfcdefaultsDict.lookup key = some t ∧ t ≠ [] ∧ putString (cStr t) = []

/-! ## What a successful set leaves -/

/-- The store after a successful set: the value is in the main dictionary, or was there already, and nothing
else that the getter reads has changed. -/
structure Stored (msg : MsgData) (s t : XRFCStore) : Prop extends SameSource s t where
  other : ∀ k, k ≠ msg.paramName.chars → t.dict.lookup k = s.dict.lookup k
  value : Holds t msg.paramName.chars msg.value.chars ∨
    t.dict.lookup msg.paramName.chars = some msg.value.chars

section
variable {env : Env} {msg : MsgData} {s : XRFCStore} (hk : msg.paramName.chars ≠ clearParam)
  (hn : nonPersistent msg.paramName.chars = false) (hu : s.updateInProgress = false)

include hk hu

theorem stored_setMain (h : (setMain env msg.paramName.chars msg.value.chars s).1 = .noFault) :
    Stored msg s (setMain env msg.paramName.chars msg.value.chars s).2 := by
  rw [setMain_idle_env env msg.value.chars hk hu] at h ⊢
  by_cases hh : Holds s msg.paramName.chars msg.value.chars
  · rw [if_pos hh]
    exact ⟨⟨rfl, rfl, rfl, rfl⟩, fun _ _ => rfl, Or.inl hh⟩
  · rw [if_neg hh] at h ⊢
    cases hw : env.opens.writeMain with
    | true =>
        rw [if_pos rfl]
        exact ⟨sameSource_withMain env.order _ _ s, fun k hne => Finmap.lookup_insert_of_ne s.dict hne,
          Or.inr (Finmap.lookup_insert s.dict)⟩
    | false =>
        rw [hw] at h
        cases h

include hn

/-- **A successful set of a persistent parameter stores it.** -/
theorem stored_setValue (h : (setValue env msg s).1 = .noFault) :
    (init env.opens.load s).1 = true ∧ Stored msg (init env.opens.load s).2 (setValue env msg s).2 := by
  cases hi : (init env.opens.load s).1 with
  | false =>
      rw [setValue_init_failed env msg hi] at h
      cases h
  | true =>
      refine ⟨rfl, ?_⟩
      have hu' : (init env.opens.load s).2.updateInProgress = false := (init_idle env.opens.load s).trans hu
      by_cases hr : msg.requestor = .webpa
      · rw [setValue_webpa env msg hi hk hn hr hu] at h ⊢
        split at h
        · next hs =>
          rw [if_pos hs]
          split at h
          · next hw =>
            rw [if_pos hw]
            have hst := stored_setMain (s := writtenLocal env msg.paramName.chars msg.value.chars _) hk hu' h
            exact ⟨⟨hst.initDone, hst.nonpersist, hst.sync, hst.defaults⟩, hst.other, hst.value⟩
          · cases h
        · cases h
      · rw [setValue_main env msg hi hk hn hr] at h ⊢
        exact stored_setMain hk hu' h

/-- An empty value is set exactly when the opens succeed: the current value is never the given one. -/
theorem setValue_empty_iff (hv : msg.value.chars = []) :
    (setValue env msg s).1 = .noFault ↔ Writable env msg s := by
  have hmain : ∀ t : XRFCStore, t.updateInProgress = false →
      ((setMain env msg.paramName.chars msg.value.chars t).1 = .noFault ↔ env.opens.writeMain = true) := by
    intro t ht
    have hh : ¬ Holds t msg.paramName.chars msg.value.chars := fun h => h.1 (by rw [h.2, hv]; rfl)
    rw [setMain_idle_env env msg.value.chars hk ht, if_neg hh]
    cases env.opens.writeMain <;> simp
  unfold Writable
  cases hi : (init env.opens.load s).1 with
  | false => simp [setValue_init_failed env msg hi]
  | true =>
      have hu' : (init env.opens.load s).2.updateInProgress = false := (init_idle env.opens.load s).trans hu
      by_cases hr : msg.requestor = .webpa
      · rw [setValue_webpa env msg hi hk hn hr hu]
        cases hs : env.opens.sem <;> cases hw : env.opens.writeLocal
        · simp [hr]
        · simp [hr]
        · simp [hr]
        · simpa [hr] using hmain (writtenLocal env msg.paramName.chars msg.value.chars _) hu'
      · rw [setValue_main env msg hi hk hn hr, hmain _ hu']
        simp [hr]

end

/-! ## Reading back -/

theorem getString_of_initDone (env : Env) (name : CString) {s : XRFCStore} (h : s.initDone = true) :
    getString env name s = (answer s name.chars).map putString := by
  rw [getString, getValue, init_of_done _ h]
  rfl

theorem putString_of_lt {t : Text} (h : t.length < maxParamLen) : putString t = t := if_pos h

section
variable {env : Env} (env' : Env) {msg : MsgData} {s : XRFCStore}

/-- No other parameter changes. -/
theorem set_frame {t : XRFCStore} (hi : (init env.opens.load s).1 = true)
    (ht : Stored msg (init env.opens.load s).2 t) {name : CString} (hne : name ≠ msg.paramName) :
    getString env' name t = getString env name s := by
  have hdone : t.initDone = true := ht.initDone.trans (init_initDone_of_fst _ hi)
  rw [getString_of_initDone env' name hdone, getString, getValue_init env name hi]
  rw [ht.toSameSource.answer_eq (ht.other name.chars fun h => hne (CString.ext h))]

/-- A value that is not empty reads back. -/
theorem getString_stored {r t : XRFCStore} (hdone : t.initDone = true) (ht : Stored msg r t)
    (hn : nonPersistent msg.paramName.chars = false) (hv : msg.value.chars ≠ [])
    (hlen : msg.value.chars.length < maxParamLen) :
    getString env' msg.paramName t = .ok msg.value.chars := by
  have hans : answer t msg.paramName.chars = .ok msg.value.chars := by
    rcases ht.value with h | h
    · exact h.answer_eq
    · have hraw : getRawValue t msg.paramName.chars = msg.value.chars := by
        rw [getRawValue, if_neg (by rw [hn]; decide), h, Option.getD_some]
      rw [answer_of_raw (by rw [hraw]; exact hv), hraw, CString.cStr_chars]
  rw [getString_of_initDone env' _ hdone, hans]
  exact congrArg Except.ok (putString_of_lt hlen)

/-- An empty value reads back exactly when the default does the same. -/
theorem getString_stored_empty {r t : XRFCStore} (hdone : t.initDone = true) (ht : Stored msg r t)
    (hn : nonPersistent msg.paramName.chars = false) (hv : msg.value.chars = []) :
    getString env' msg.paramName t = .ok [] ↔
      ∃ d, r.rfcdefaultsDict.lookup msg.paramName.chars = some d ∧ d ≠ [] ∧ putString (cStr d) = [] := by
  have hraw : getRawValue t msg.paramName.chars = [] := by
    rw [getRawValue, if_neg (by rw [hn]; decide)]
    rcases ht.value with h | h
    · exact absurd (h.2.trans (by rw [hv]; rfl)) h.1
    · rw [h, Option.getD_some, hv]
  rw [getString_of_initDone env' _ hdone, answer, hraw, if_neg (by simp), ht.defaults]
  cases hd : r.rfcdefaultsDict.lookup msg.paramName.chars with
  | none => simp [Except.map]
  | some d =>
      by_cases hne : d = []
      · simp [hne, Except.map]
      · simp [hne, Except.map]

/-- **A set followed by a get.** For a persistent parameter of the RFC store outside an update and a value that
fits the message buffer: if the set succeeds, the value reads back and no other parameter changes, exactly when
the value is not empty, or the set fails, or the default for the parameter reads as empty too. -/
theorem setThenGet_iff (env env' : Env) (msg : MsgData) (s : XRFCStore) (hu : s.updateInProgress = false)
    (hk : msg.paramName.chars ≠ clearParam) (hn : nonPersistent msg.paramName.chars = false)
    (hlen : msg.value.chars.length < maxParamLen) :
    SetThenGet env env' msg s ↔
      msg.value.chars ≠ [] ∨ ¬ Writable env msg s ∨ DefaultReadsEmpty env msg.paramName.chars s := by
  by_cases hv : msg.value.chars = []
  · rw [SetThenGet, setValue_empty_iff hk hn hu hv]
    by_cases hw : Writable env msg s
    · obtain ⟨hi, ht⟩ := stored_setValue hk hn hu ((setValue_empty_iff hk hn hu hv).mpr hw)
      have hdone := ht.initDone.trans (init_initDone_of_fst _ hi)
      have hiff := getString_stored_empty env' hdone ht hn hv
      constructor
      · intro h
        have hok := (h hw).1
        rw [hv] at hok
        exact Or.inr (Or.inr (hiff.mp hok))
      · rintro (h | h | h)
        · exact absurd hv h
        · exact absurd hw h
        · intro _
          refine ⟨?_, fun name hne => set_frame env' hi ht hne⟩
          rw [hv]
          exact hiff.mpr h
    · exact ⟨fun _ => Or.inr (Or.inl hw), fun _ h => absurd h hw⟩
  · refine ⟨fun _ => Or.inl hv, fun _ h => ?_⟩
    obtain ⟨hi, ht⟩ := stored_setValue hk hn hu h
    have hdone := ht.initDone.trans (init_initDone_of_fst _ hi)
    exact ⟨getString_stored env' hdone ht hn hv hlen, fun name hne => set_frame env' hi ht hne⟩

end

/-- A store without settings whose defaults hold `Device.A`. -/
def defaultsStore : XRFCStore := start (Env.ok byKey) { noFiles with rfcdefaults := some "Device.A=1\n".toList }

theorem setThenGet_iff_overDefault :
    let msg : MsgData := ⟨.ofLiteral "Device.A", .ofLiteral "0", .webpa⟩
    defaultsStore.updateInProgress = false ∧ SetThenGet (Env.ok byKey) (Env.ok byKey) msg defaultsStore :=
  ⟨by decide, (setThenGet_iff (Env.ok byKey) (Env.ok byKey) ⟨.ofLiteral "Device.A", .ofLiteral "0", .webpa⟩
    defaultsStore (by decide) (by decide) (by decide) (by decide)).mpr (Or.inl (by decide))⟩

/-- A parameter set to the empty value reads as its default. -/
theorem set_empty_reads_default :
    let msg : MsgData := ⟨.ofLiteral "Device.A", .ofLiteral "", .rfc⟩
    ¬ SetThenGet (Env.ok byKey) (Env.ok byKey) msg defaultsStore := by
  intro msg h
  have hget := (h (by decide)).1
  revert hget
  decide

end Tr69HostIf.RFC
