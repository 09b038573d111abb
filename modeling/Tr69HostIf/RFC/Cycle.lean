import Tr69HostIf.RFC.Agreement

/-!
# The update cycle of the RFC store

A cycle is `clearAll`, any requests, `reloadCache`.

* `Window es s` : between the two, the main file holds the lines of the RFC sets `es` made so far;
  `cycle_result` : after the cycle the main store is the last RFC value of every key, else the local one,
  provided that no clear request in the cycle removed a local key (such a request rewrites the main file
  from the cache of before the cycle).
-/

namespace Tr69HostIf.RFC
open Store

/-! ## The main store -/

/-- What may stand between `clearAll` and `reloadCache`: RFC and WebPA sets, clear requests and reads. -/
def CycleRequest : Request → Prop
  | .setValue msg =>
      (msg.requestor = .rfc ∨ msg.requestor = .webpa ∨ msg.paramName.chars = clearParam) ∧
        nonPersistent msg.paramName.chars = false ∧ CleanEntry msg.paramName.chars msg.value.chars
  | .getValue _ => True
  | _ => False

instance : DecidablePred CycleRequest
  | .setValue _ => inferInstanceAs (Decidable (_ ∧ _ ∧ _))
  | .getValue _ => inferInstanceAs (Decidable True)
  | .clearAll | .reloadCache | .restart => inferInstanceAs (Decidable False)

/-- The entry an RFC set of a persistent parameter carries. -/
def rfcSet : Request → List (Text × Text)
  | .setValue msg =>
      if msg.requestor = .rfc ∧ msg.paramName.chars ≠ clearParam ∧ nonPersistent msg.paramName.chars = false then
        [(msg.paramName.chars, msg.value.chars)]
      else []
  | _ => []

/-- The entries RFC set in a run, in order. -/
def rfcSets (l : List (Order Text × Request)) : List (Text × Text) := l.flatMap fun i => rfcSet i.2

/-- If the request is a clear request, no key of the local store meets it. -/
def ClearsNothing (s : XRFCStore) (i : Order Text × Request) : Prop :=
  match i.2 with
  | .setValue msg =>
      msg.paramName.chars = clearParam → ∀ k ∈ load (s.files.loc.getD []), clears msg.value.chars k = false
  | _ => True

/-- The store in the middle of an update whose RFC sets so far are `es`. -/
structure Window (es : List (Text × Text)) (s : XRFCStore) : Prop where
  initDone : s.initDone = true
  updating : s.updateInProgress = true
  main : s.files.main = some (render es)
  clean : ∀ p ∈ es, CleanEntry p.1 p.2

theorem window_clearAll (ord : Order Text) {s : XRFCStore} (hu : s.updateInProgress = false) :
    Window [] (clearAll (Env.ok ord) s) := by
  rw [clearAll_init, clearAll_idle ord (init_initDone s) ((init_updateInProgress s).trans hu)]
  exact ⟨init_initDone s, rfl, rfl, by simp⟩

theorem SetStep.window {ord : Order Text} {msg : MsgData} {s t : XRFCStore} (hs : SetStep ord msg s t)
    {es : List (Text × Text)} (h : Window es s) (hm : CycleRequest (.setValue msg))
    (hc : ClearsNothing s (ord, .setValue msg)) : Window (es ++ rfcSet (.setValue msg)) t := by
  obtain ⟨hreq, hper, hclean⟩ := hm
  cases hs with
  | clearNone hk hc' =>
      rw [rfcSet, if_neg fun hh => hh.2.1 hk, List.append_nil]
      exact ⟨h.initDone, h.updating, h.main, h.clean⟩
  | clearSome hk hc' =>
      obtain ⟨k, hk'⟩ := List.exists_mem_of_ne_nil _ hc'
      obtain ⟨hl, hcl⟩ := (mem_clearedKeys ord).mp hk'
      exact absurd (hc hk k hl) (by rw [hcl]; decide)
  | nonpersist hn hr => rw [hper] at hn; cases hn
  | refused hn hr => rw [hper] at hn; cases hn
  | localOnly hk hn hr hu =>
      rw [rfcSet, if_neg (by rw [hr]; simp), List.append_nil]
      exact ⟨h.initDone, h.updating, h.main, h.clean⟩
  | localMain hk hn hr hu => exact absurd (h.updating.symm.trans hu) (by decide)
  | localSame hk hn hr hu v hv hc' => exact absurd (h.updating.symm.trans hu) (by decide)
  | append hk hn hr hu =>
      have hrfc : msg.requestor = .rfc := by
        rcases hreq with h' | h' | h'
        · exact h'
        · exact absurd h' hr
        · exact absurd h' hk
      rw [rfcSet, if_pos ⟨hrfc, hk, hn⟩]
      refine ⟨h.initDone, h.updating, ?_, ?_⟩
      · show some (s.files.main.getD [] ++ entryLine _) = _
        rw [h.main, Option.getD_some, render_append, render_singleton]
      · intro p hp
        rcases List.mem_append.mp hp with hp | hp
        · exact h.clean p hp
        · rw [List.mem_singleton.mp hp]
          exact hclean
  | main hk hn hr hu => exact absurd (h.updating.symm.trans hu) (by decide)
  | same hk hn hr hu v hv hc' => exact absurd (h.updating.symm.trans hu) (by decide)

theorem window_step (es : List (Text × Text)) (s : XRFCStore) (i : Order Text × Request) (h : Window es s)
    (hi : CycleRequest i.2 ∧ ClearsNothing s i) : Window (es ++ rfcSet i.2) (step s i) := by
  obtain ⟨ord, r⟩ := i
  cases r with
  | setValue msg => exact (setValue_setStep ord msg h.initDone).window h hi.1 hi.2
  | getValue name =>
      have : step s (ord, .getValue name) = s := congrArg Prod.snd (getValue_ok ord name h.initDone)
      rw [this]
      simpa [rfcSet] using h
  | clearAll => exact hi.1.elim
  | reloadCache => exact hi.1.elim
  | restart => exact hi.1.elim

/-- **The result of a cycle**: the last RFC value, else the local one, in the cache and in the file. -/
theorem cycle_result (s : XRFCStore) (hu : s.updateInProgress = false) (ord₀ ord₁ : Order Text)
    (l : List (Order Text × Request)) (hl : ∀ i ∈ l, CycleRequest i.2)
    (hc : Along step ClearsNothing (clearAll (Env.ok ord₀) s) l) :
    let e := run step (clearAll (Env.ok ord₀) s) l
    let s' := reloadCache (Env.ok ord₁) e
    s'.localDict = load (e.files.loc.getD []) ∧
      (∀ k, s'.dict.lookup k = (lastOf (rfcSets l) k).or (s'.localDict.lookup k)) ∧
      ∀ k, (load (s'.files.main.getD [])).lookup k = (lastOf (rfcSets l) k).or (s'.localDict.lookup k) := by
  intro e s'
  have hw : Window (rfcSets l) e := by
    have := Along.history (fun i => rfcSet i.2) window_step (window_clearAll ord₀ hu) (Along.and_forall hl hc)
    rwa [List.nil_append] at this
  have hs' : s' = _ := reloadCache_updating ord₁ hw.updating
  have hmain : load (e.files.main.getD []) = ofList (rfcSets l) := by
    rw [hw.main, Option.getD_some, load_render hw.clean]
  have hdict : ∀ k, s'.dict.lookup k = (lastOf (rfcSets l) k).or (s'.localDict.lookup k) := by
    intro k
    rw [hs', ← lookup_ofList, ← hmain]
    exact lookup_copyLocal ord₁ _ _ k
  have hclean : CleanDict s'.dict := by
    rw [hs']
    exact copyLocal_clean ord₁ (load_clean _) (load_clean _)
  have hfile : load (s'.files.main.getD []) = s'.dict := by
    rw [← load_render_enum ord₁ hclean, hs']
    rfl
  exact ⟨by rw [hs']; rfl, hdict, fun k => by rw [hfile, hdict k]⟩

/-- A store with a WebPA setting of `Device.B` and an RFC value of `Device.A`. -/
def webpaStore : XRFCStore :=
  start (Env.ok byKey)
    { main := some "Device.A=1\nDevice.B=2\n".toList, loc := some "Device.B=2\n".toList, nonpersist := none
      rfcdefaults := some [], rfcdefaultsDir := [], rfcSyncDone := true }

/-- RFC and WebPA set the same parameter. -/
def rfcThenWebpa : List (Order Text × Request) :=
  [(byKey, setLiteral "Device.A" "3" .rfc), (byKey, setLiteral "Device.A" "4" .webpa)]

theorem cycle_result_rfcThenWebpa :
    let s' := reloadCache (Env.ok byKey) (run step (clearAll (Env.ok byKey) webpaStore) rfcThenWebpa)
    ∀ k, s'.dict.lookup k = (lastOf (rfcSets rfcThenWebpa) k).or (s'.localDict.lookup k) :=
  (cycle_result webpaStore (by decide) byKey byKey rfcThenWebpa (by decide)
    ⟨fun h => absurd h (by decide), fun h => absurd h (by decide), trivial⟩).2.1

/-- A clear request in the cycle rewrites the main file from the old cache: the RFC set made before it is
lost, and a value of before the cycle is back. -/
theorem clear_in_cycle_loses_rfc_set :
    let l := [(byKey, setLiteral "Device.C" "3" .rfc),
      (byKey, setLiteral "Device.DeviceInfo.X_RDKCENTRAL-COM_RFC.ClearParam" "Device.B" .webpa)]
    let s' := reloadCache (Env.ok byKey) (run step (clearAll (Env.ok byKey) webpaStore) l)
    webpaStore.updateInProgress = false ∧ (∀ i ∈ l, CycleRequest i.2) ∧
      (s'.dict.lookup "Device.C".toList = none ∧ lastOf (rfcSets l) "Device.C".toList = some "3".toList) ∧
      (s'.dict.lookup "Device.A".toList = some "1".toList ∧ lastOf (rfcSets l) "Device.A".toList = none ∧
        s'.localDict.lookup "Device.A".toList = none) := by
  decide

end Tr69HostIf.RFC
