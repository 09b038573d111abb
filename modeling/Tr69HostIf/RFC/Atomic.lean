import Tr69HostIf.RFC.Faults

/-!
# What a refused set leaves

`Refused` : the sets that do not return `fcNoFault`, in any state, an update or not; `failed` : what they leave. A WebPA
set reads the local store again and writes it before the main one, and nothing undoes that: `refused_clean_iff` says
when the caches and files are all the same.
-/

namespace Tr69HostIf.RFC
open Store

/-- The caches and the files behind them are the same. -/
structure SameStores (s t : XRFCStore) : Prop where
  dict : t.dict = s.dict
  localDict : t.localDict = s.localDict
  nonpersistDict : t.nonpersistDict = s.nonpersistDict
  main : t.files.main = s.files.main
  loc : t.files.loc = s.files.loc
  nonpersist : t.files.nonpersist = s.files.nonpersist

section
variable (env : Env) (msg : MsgData) (s : XRFCStore)

/-- A set that fails changes nothing. -/
def FailsClean : Prop := (setValue env msg s).1 ≠ .noFault → SameStores s (setValue env msg s).2

/-- The main store cannot be written, and would have to be. -/
def MainRefuses : Prop :=
  env.opens.writeMain = false ∧ (s.updateInProgress = true ∨ ¬ Holds s msg.paramName.chars msg.value.chars)

instance : Decidable (MainRefuses env msg s) := inferInstanceAs (Decidable (_ ∧ _))

/-- The set gets as far as the local store. -/
def ReachesLocal : Prop :=
  msg.paramName.chars ≠ clearParam ∧ nonPersistent msg.paramName.chars = false ∧ msg.requestor = .webpa ∧
    env.opens.sem = true

instance : Decidable (ReachesLocal env msg) := inferInstanceAs (Decidable (_ ∧ _))

/-- An initialised store refuses the set. -/
def RefusedInitialised : Prop :=
  if msg.paramName.chars = clearParam then env.opens.sem = false
  else if nonPersistent msg.paramName.chars = true then
    msg.requestor ≠ .rfc ∨ env.opens.writeNonpersist = false
  else if msg.requestor = .webpa then
    env.opens.sem = false ∨ env.opens.writeLocal = false ∨ s.updateInProgress = false ∧ MainRefuses env msg s
  else MainRefuses env msg s

/-- The set is refused, by the store as `init` leaves it or because `init` fails. -/
def Refused : Prop :=
  (init env.opens.load s).1 = true → RefusedInitialised env msg (init env.opens.load s).2

/-- The local cache and file already are what the set makes them before it fails. -/
def LocalSettled : Prop :=
  if env.opens.writeLocal = true then
    let l := (loadFileToCache env.opens.readLocal s.files.loc).insert msg.paramName.chars msg.value.chars
    s.localDict = l ∧ s.files.loc = some (render (env.order.enum l))
  else s.localDict = loadFileToCache env.opens.readLocal s.files.loc

/-- What a set has done when it fails changes nothing: the caches are those that `init` loads, if it has to, and the
local store is settled, if the set gets there. -/
def Settled : Prop :=
  (s.initDone = true ∨ s.dict = loadFileToCache env.opens.load.main s.files.main) ∧
    (s.initDone = true ∨ env.opens.load.sem = false ∨
      s.nonpersistDict = loadFileToCache env.opens.load.nonpersist s.files.nonpersist) ∧
    if (init env.opens.load s).1 = true ∧ ReachesLocal env msg then LocalSettled env msg s
    else s.initDone = true ∨ env.opens.load.sem = false ∨
      s.localDict = loadFileToCache env.opens.load.loc s.files.loc

/-- What a failed set leaves of an initialised store. -/
def failed : XRFCStore :=
  if ReachesLocal env msg then
    if env.opens.writeLocal then writtenLocal env msg.paramName.chars msg.value.chars s else readLocal env s
  else s

end

/-! ## Refused sets -/

section
variable {env : Env} {msg : MsgData} {s : XRFCStore}

theorem setMain_env (hk : msg.paramName.chars ≠ clearParam) :
    (MainRefuses env msg s → setMain env msg.paramName.chars msg.value.chars s = (.internalError, s)) ∧
      (¬ MainRefuses env msg s → (setMain env msg.paramName.chars msg.value.chars s).1 = .noFault) := by
  cases hu : s.updateInProgress with
  | false =>
      rw [setMain_idle_env env msg.value.chars hk hu]
      by_cases hh : Holds s msg.paramName.chars msg.value.chars
      · simp [MainRefuses, hu, hh]
      · cases hw : env.opens.writeMain <;> simp [MainRefuses, hu, hh, hw]
  | true =>
      rw [setMain, setRawValue]
      cases hw : env.opens.writeMain <;> simp [MainRefuses, hu, hw]

theorem setInitialised_refused (h : RefusedInitialised env msg s) :
    setInitialised env msg s = (.internalError, failed env msg s) := by
  unfold RefusedInitialised at h
  unfold setInitialised failed
  by_cases hk : msg.paramName.chars = clearParam
  · have hl : ¬ ReachesLocal env msg := fun hr => hr.1 hk
    rw [if_pos hk] at h
    simp only [if_pos hk, if_neg hl, clearValue, h]
    rfl
  simp only [if_neg hk] at h ⊢
  cases hn : nonPersistent msg.paramName.chars with
  | true =>
      have hl : ¬ ReachesLocal env msg := fun hr => by
        have := hr.2.1
        rw [hn] at this
        cases this
      rw [if_pos hn] at h
      simp only [if_true, if_neg hl, setNonpersist]
      by_cases hr : msg.requestor = .rfc
      · have hw : env.opens.writeNonpersist = false := h.resolve_left fun hne => hne hr
        rw [if_pos hr, hw]
        rfl
      · rw [if_neg hr]
  | false =>
      rw [if_neg (by rw [hn]; decide)] at h
      by_cases hr : msg.requestor = .webpa
      · rw [if_pos hr] at h
        rw [if_neg (by decide), if_pos hr, setLocal_env env msg.value.chars hk]
        cases hs : env.opens.sem with
        | false =>
            have hl : ¬ ReachesLocal env msg := fun hl => absurd (hs.symm.trans hl.2.2.2) (by decide)
            rw [if_neg (by decide), if_neg hl]
        | true =>
            have hl : ReachesLocal env msg := ⟨hk, hn, hr, hs⟩
            rw [if_pos rfl, if_pos hl]
            cases hw : env.opens.writeLocal with
            | false => rfl
            | true =>
                obtain ⟨hu, hm⟩ := (h.resolve_left (by rw [hs]; decide)).resolve_left (by rw [hw]; decide)
                have hu' : (writtenLocal env msg.paramName.chars msg.value.chars s).updateInProgress = false := hu
                have hm' : MainRefuses env msg (writtenLocal env msg.paramName.chars msg.value.chars s) := hm
                simp only [if_true, hu', Bool.false_eq_true, if_false]
                exact (setMain_env hk).1 hm'
      · have hl : ¬ ReachesLocal env msg := fun hl => hr hl.2.2.1
        rw [if_neg hr] at h
        rw [if_neg (by decide), if_neg hr, if_neg hl]
        exact (setMain_env hk).1 h

theorem setInitialised_accepted (h : ¬ RefusedInitialised env msg s) : (setInitialised env msg s).1 = .noFault := by
  unfold RefusedInitialised at h
  unfold setInitialised
  by_cases hk : msg.paramName.chars = clearParam
  · rw [if_pos hk, Bool.not_eq_false] at h
    rw [if_pos hk, clearValue, if_pos h]
    simp only []
    split
    · rfl
    · rfl
  simp only [if_neg hk] at h ⊢
  cases hn : nonPersistent msg.paramName.chars with
  | true =>
      rw [if_pos hn, not_or, not_not, Bool.not_eq_false] at h
      rw [if_pos rfl, setNonpersist, if_pos h.1, writeHashToFile_env env _ hk, if_pos h.2]
      rfl
  | false =>
      rw [if_neg (by rw [hn]; decide)] at h
      by_cases hr : msg.requestor = .webpa
      · rw [if_pos hr, not_or, not_or, Bool.not_eq_false, Bool.not_eq_false] at h
        obtain ⟨hs, hw, hm⟩ := h
        rw [if_neg (by decide), if_pos hr, setLocal_env env msg.value.chars hk, if_pos hs, if_pos hw]
        cases hu : s.updateInProgress with
        | true =>
            have hu' : (writtenLocal env msg.paramName.chars msg.value.chars s).updateInProgress = true := hu
            simp only [if_true, hu']
        | false =>
            have hu' : (writtenLocal env msg.paramName.chars msg.value.chars s).updateInProgress = false := hu
            have hm' : ¬ MainRefuses env msg (writtenLocal env msg.paramName.chars msg.value.chars s) :=
              fun h => hm ⟨hu, h⟩
            simp only [if_true, hu', Bool.false_eq_true, if_false]
            exact (setMain_env hk).2 hm'
      · rw [if_neg hr] at h
        rw [if_neg (by decide), if_neg hr]
        exact (setMain_env hk).2 h

theorem setValue_ne_noFault_iff : (setValue env msg s).1 ≠ .noFault ↔ Refused env msg s := by
  cases hi : (init env.opens.load s).1 with
  | false =>
      rw [setValue_init_failed env msg hi]
      refine iff_of_true (fun h => FaultCode.noConfusion h) fun h => ?_
      rw [hi] at h
      cases h
  | true =>
      rw [setValue_init env msg hi]
      by_cases h : RefusedInitialised env msg (init env.opens.load s).2
      · rw [setInitialised_refused h]
        exact iff_of_true (fun h => FaultCode.noConfusion h) fun _ => h
      · rw [setInitialised_accepted h]
        exact iff_of_false (fun hne => hne rfl) fun hr => h (hr hi)

/-! ## What they leave -/

theorem sameStores_failed_iff {f : XRFCStore} (hmain : f.files.main = s.files.main) (hloc : f.files.loc = s.files.loc)
    (hnp : f.files.nonpersist = s.files.nonpersist) :
    SameStores s (failed env msg f) ↔
      f.dict = s.dict ∧ f.nonpersistDict = s.nonpersistDict ∧
        if ReachesLocal env msg then LocalSettled env msg s else f.localDict = s.localDict := by
  unfold failed
  by_cases hl : ReachesLocal env msg
  · rw [if_pos hl, if_pos hl, LocalSettled]
    cases hw : env.opens.writeLocal with
    | false =>
        simp only [Bool.false_eq_true, if_false]
        constructor
        · intro h
          refine ⟨h.dict, h.nonpersistDict, ?_⟩
          rw [← hloc]
          exact h.localDict.symm
        · rintro ⟨hd, hn, h⟩
          rw [← hloc] at h
          exact ⟨hd, h.symm, hn, hmain, hloc, hnp⟩
    | true =>
        rw [if_pos rfl, if_pos rfl]
        constructor
        · intro h
          have hdict : (loadFileToCache env.opens.readLocal f.files.loc).insert msg.paramName.chars msg.value.chars =
              s.localDict := h.localDict
          have hfile : some (render (env.order.enum ((loadFileToCache env.opens.readLocal f.files.loc).insert
              msg.paramName.chars msg.value.chars))) = s.files.loc := h.loc
          rw [hloc] at hdict hfile
          exact ⟨h.dict, h.nonpersistDict, hdict.symm, hfile.symm⟩
        · rintro ⟨hd, hn, hdict, hfile⟩
          rw [← hloc] at hdict hfile
          exact ⟨hd, hdict.symm, hn, hmain, hfile.symm.trans hloc, hnp⟩
  · rw [if_neg hl, if_neg hl]
    exact ⟨fun h => ⟨h.dict, h.nonpersistDict, h.localDict⟩, fun h => ⟨h.1, h.2.2, h.2.1, hmain, hloc, hnp⟩⟩

/-- What `init` loads, when it has to. -/
theorem init_caches (o : LoadOpens) (s : XRFCStore) (h : ¬ s.initDone = true) :
    (init o s).2.dict = loadFileToCache o.main s.files.main ∧
      (init o s).2.localDict = (if o.sem = true then loadFileToCache o.loc s.files.loc else s.localDict) ∧
      (init o s).2.nonpersistDict =
        (if o.sem = true then loadFileToCache o.nonpersist s.files.nonpersist else s.nonpersistDict) := by
  rw [init, if_neg h, loadTR181PropertiesIntoCache]
  simp only []
  split
  · split
    · exact ⟨rfl, rfl, rfl⟩
    · split
      · split
        · exact ⟨rfl, rfl, rfl⟩
        · exact ⟨rfl, rfl, rfl⟩
      · exact ⟨rfl, rfl, rfl⟩
  · exact ⟨rfl, rfl, rfl⟩

theorem init_files (o : LoadOpens) (s : XRFCStore) :
    (init o s).2.files.main = s.files.main ∧ (init o s).2.files.loc = s.files.loc ∧
      (init o s).2.files.nonpersist = s.files.nonpersist := by
  unfold init loadTR181PropertiesIntoCache
  split
  · exact ⟨rfl, rfl, rfl⟩
  · simp only []
    repeat' split
    all_goals exact ⟨rfl, rfl, rfl⟩

theorem init_dict_eq_iff {o : LoadOpens} :
    (init o s).2.dict = s.dict ↔ s.initDone = true ∨ s.dict = loadFileToCache o.main s.files.main := by
  by_cases h : s.initDone = true
  · rw [init_of_done o h]
    exact iff_of_true rfl (Or.inl h)
  · rw [(init_caches o s h).1, or_iff_right h, eq_comm]

theorem init_nonpersistDict_eq_iff {o : LoadOpens} :
    (init o s).2.nonpersistDict = s.nonpersistDict ↔
      s.initDone = true ∨ o.sem = false ∨ s.nonpersistDict = loadFileToCache o.nonpersist s.files.nonpersist := by
  by_cases h : s.initDone = true
  · rw [init_of_done o h]
    exact iff_of_true rfl (Or.inl h)
  · rw [(init_caches o s h).2.2, or_iff_right h]
    cases hs : o.sem with
    | false => simp
    | true => simp [eq_comm]

theorem init_localDict_eq_iff {o : LoadOpens} :
    (init o s).2.localDict = s.localDict ↔
      s.initDone = true ∨ o.sem = false ∨ s.localDict = loadFileToCache o.loc s.files.loc := by
  by_cases h : s.initDone = true
  · rw [init_of_done o h]
    exact iff_of_true rfl (Or.inl h)
  · rw [(init_caches o s h).2.1, or_iff_right h]
    cases hs : o.sem with
    | false => simp
    | true => simp [eq_comm]

theorem sameStores_of_refused (h : Refused env msg s) : SameStores s (setValue env msg s).2 ↔ Settled env msg s := by
  obtain ⟨hmain, hloc, hnp⟩ := init_files env.opens.load s
  unfold Settled
  cases hi : (init env.opens.load s).1 with
  | false =>
      have hno : ¬ (false = true ∧ ReachesLocal env msg) := fun h => by cases h.1
      rw [setValue_init_failed env msg hi, if_neg hno, ← init_dict_eq_iff, ← init_nonpersistDict_eq_iff,
        ← init_localDict_eq_iff]
      exact ⟨fun h => ⟨h.dict, h.nonpersistDict, h.localDict⟩, fun h => ⟨h.1, h.2.2, h.2.1, hmain, hloc, hnp⟩⟩
  | true =>
      rw [setValue_init env msg hi, setInitialised_refused (h hi), sameStores_failed_iff hmain hloc hnp,
        init_dict_eq_iff, init_nonpersistDict_eq_iff, init_localDict_eq_iff]
      simp only [true_and]

/-- **A set that fails changes nothing exactly when it is accepted or what it does before it fails is settled.** -/
theorem failsClean_iff : FailsClean env msg s ↔ (Refused env msg s → Settled env msg s) := by
  unfold FailsClean
  rw [setValue_ne_noFault_iff]
  exact forall_congr' sameStores_of_refused

end

end Tr69HostIf.RFC
