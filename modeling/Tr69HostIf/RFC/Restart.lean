import Tr69HostIf.RFC.Cycle

/-!
# Local settings across cycles and restarts

`Owed` follows the requests alone: the value RFC has given each key since the last accepted `ClearDB`, as long
as no WebPA set outside an update has come after it. `Tracked g s` holds along every run; `Merged g s` ties the
owed values to the store: during an update the main file holds exactly them, outside one every local key is in
the main dictionary with its owed value, else with the local one. Every accepted `ClearDB` establishes it
(`merged_clearAll`) and every request keeps it that leaves the update undisturbed (`merged_step`).
-/

namespace Tr69HostIf.RFC
open Store

/-- What the requests so far promise: whether an update is going on, and the RFC values that count. -/
structure Owed where
  updating : Bool
  rfc : Dict Text Text

/-- Before the first request nothing is promised. -/
def Owed.init : Owed := ⟨false, ∅⟩

/-- The promise after one more request. -/
def Owed.step (g : Owed) (i : Order Text × Request) : Owed :=
  match i.2 with
  | .setValue msg =>
      if msg.paramName.chars = clearParam ∨ nonPersistent msg.paramName.chars = true then g
      else if msg.requestor = .webpa then
        if g.updating then g else { g with rfc := g.rfc.erase msg.paramName.chars }
      else { g with rfc := g.rfc.insert msg.paramName.chars msg.value.chars }
  | .getValue _ => g
  | .clearAll => if g.updating then g else ⟨true, ∅⟩
  | .reloadCache | .restart => { g with updating := false }

/-- The requests a run is made of: sets by RFC and WebPA, clear requests, reads, the two ends of a cycle and
restarts, with keys and values that fit a line. -/
def RunRequest : Request → Prop
  | .setValue msg =>
      (msg.requestor = .rfc ∨ msg.requestor = .webpa ∨ msg.paramName.chars = clearParam) ∧
        CleanEntry msg.paramName.chars msg.value.chars
  | _ => True

instance : DecidablePred RunRequest
  | .setValue _ => inferInstanceAs (Decidable (_ ∧ _))
  | .getValue _ | .clearAll | .reloadCache | .restart => inferInstanceAs (Decidable True)

/-- An update is not cut short by a restart, and no clear request removes a local key in its middle. -/
def Undisturbed (s : XRFCStore) (i : Order Text × Request) : Prop :=
  s.updateInProgress = true → i.2 ≠ .restart ∧ ClearsNothing s i

/-- Values as a C string holds them. -/
def NulFree : Dict Text Text → Prop := AllEntries fun _ v => '\x00' ∉ v

/-- What every run keeps: files and caches agree, the phases are the same, and no value holds a NUL. -/
structure Tracked (g : Owed) (s : XRFCStore) : Prop where
  agree : Agree s
  phase : g.updating = s.updateInProgress
  nulDict : NulFree s.dict
  nulLocal : NulFree s.localDict
  nulMain : s.updateInProgress = true → NulFree (load (s.files.main.getD []))
  terminated : s.updateInProgress = true → Terminated (s.files.main.getD [])

/-- The store keeps the promise `g`. -/
structure Merged (g : Owed) (s : XRFCStore) : Prop extends Tracked g s where
  updating : s.updateInProgress = true → load (s.files.main.getD []) = g.rfc
  idle : s.updateInProgress = false →
    ∀ k v, s.localDict.lookup k = some v → s.dict.lookup k = some ((g.rfc.lookup k).getD v)

/-! ## Set requests -/

section
variable {g : Owed} {s t : XRFCStore} {ord : Order Text} {msg : MsgData}

theorem step_webpa (hk : msg.paramName.chars ≠ clearParam) (hn : nonPersistent msg.paramName.chars = false)
    (hr : msg.requestor = .webpa) :
    g.step (ord, .setValue msg) = if g.updating then g else { g with rfc := g.rfc.erase msg.paramName.chars } := by
  simp [Owed.step, hk, hn, hr]

theorem step_rfc (hk : msg.paramName.chars ≠ clearParam) (hn : nonPersistent msg.paramName.chars = false)
    (hr : msg.requestor ≠ .webpa) :
    g.step (ord, .setValue msg) = { g with rfc := g.rfc.insert msg.paramName.chars msg.value.chars } := by
  simp [Owed.step, hk, hn, hr]

theorem step_aside (h : msg.paramName.chars = clearParam ∨ nonPersistent msg.paramName.chars = true) :
    g.step (ord, .setValue msg) = g := by
  simp only [Owed.step, if_pos h]

/-- The current value is the given one when no C string tells them apart. -/
theorem eq_of_cStr {d : Dict Text Text} (hd : NulFree d) {k v w : Text} (hl : d.lookup k = some v)
    (hc : cStr v = w) : v = w := by
  rw [← hc, cStr_of_noNul (hd k v hl)]

theorem idle_insert {dict loc : Dict Text Text} {rfc : Dict Text Text}
    (h : ∀ k v, loc.lookup k = some v → dict.lookup k = some ((rfc.lookup k).getD v)) (key value : Text) :
    ∀ k v, loc.lookup k = some v →
      (dict.insert key value).lookup k = some (((rfc.insert key value).lookup k).getD v) := by
  intro k v hl
  rw [lookup_insert_ite, lookup_insert_ite]
  by_cases hk : k = key
  · rw [if_pos hk, if_pos hk, Option.getD_some]
  · rw [if_neg hk, if_neg hk]
    exact h k v hl

theorem idle_insert_local {dict loc : Dict Text Text} {rfc : Dict Text Text}
    (h : ∀ k v, loc.lookup k = some v → dict.lookup k = some ((rfc.lookup k).getD v)) (key value : Text) :
    ∀ k v, (loc.insert key value).lookup k = some v →
      (dict.insert key value).lookup k = some (((rfc.erase key).lookup k).getD v) := by
  intro k v hl
  rw [lookup_insert_ite] at hl ⊢
  rw [lookup_erase_ite]
  by_cases hk : k = key
  · rw [if_pos hk] at hl ⊢
    rw [if_pos hk, hl]
    rfl
  · rw [if_neg hk] at hl ⊢
    rw [if_neg hk]
    exact h k v hl

theorem insert_of_lookup {d : Dict Text Text} {k v : Text} (h : d.lookup k = some v) : d.insert k v = d := by
  refine Finmap.ext_lookup fun a => ?_
  rw [lookup_insert_ite]
  by_cases ha : a = k
  · rw [if_pos ha, ha, h]
  · rw [if_neg ha]

theorem not_idle_updating {P : Prop} (hf : s.updateInProgress = false) (ht : s.updateInProgress = true) : P := by
  rw [hf] at ht
  cases ht

theorem step_updating : (g.step (ord, .setValue msg)).updating = g.updating := by
  unfold Owed.step
  simp only
  split
  · rfl
  · split
    · split
      · rfl
      · rfl
    · rfl

theorem SetStep.phase (hs : SetStep ord msg s t) : t.updateInProgress = s.updateInProgress := by
  cases hs <;> rfl

theorem load_main_append (h : Terminated (s.files.main.getD []))
    (hclean : CleanEntry msg.paramName.chars msg.value.chars) :
    load ((withAppended msg.paramName.chars msg.value.chars s).files.main.getD []) =
      (load (s.files.main.getD [])).insert msg.paramName.chars msg.value.chars := by
  show load (s.files.main.getD [] ++ entryLine _) = _
  rw [load_append h, ← render_singleton, entries_render (by simpa using hclean)]
  rfl

theorem SetStep.tracked (hs : SetStep ord msg s t) (h : Tracked g s)
    (hclean : CleanEntry msg.paramName.chars msg.value.chars) : Tracked (g.step (ord, .setValue msg)) t := by
  have hagree : Agree t := hs.agree h.agree hclean
  have hphase : (g.step (ord, .setValue msg)).updating = t.updateInProgress := by
    rw [step_updating, hs.phase, h.phase]
  have hloc : NulFree (load (s.files.loc.getD [])) := by
    rw [h.agree.loc]
    exact h.nulLocal
  have hv := msg.value.noNul
  cases hs with
  | clearNone hk hc => exact ⟨hagree, hphase, h.nulDict, hloc, h.nulMain, h.terminated⟩
  | clearSome hk hc =>
      have hd : NulFree (eraseAll s.dict (clearedKeys ord msg.value.chars s)) := AllEntries.eraseAll h.nulDict _
      refine ⟨hagree, hphase, hd, AllEntries.eraseAll hloc _, fun _ => ?_, fun _ => terminated_render _⟩
      -- the main file is the cache without the cleared keys, also in the middle of an update
      show NulFree (load (render _))
      rw [load_render_enum ord (AllEntries.eraseAll h.agree.cleanDict _)]
      exact hd
  | nonpersist hn hr => exact ⟨hagree, hphase, h.nulDict, h.nulLocal, h.nulMain, h.terminated⟩
  | refused hn hr => exact ⟨hagree, hphase, h.nulDict, h.nulLocal, h.nulMain, h.terminated⟩
  | localOnly hk hn hr hu =>
      exact ⟨hagree, hphase, h.nulDict, AllEntries.insert hloc hv, h.nulMain, h.terminated⟩
  | localMain hk hn hr hu =>
      exact ⟨hagree, hphase, AllEntries.insert h.nulDict hv, AllEntries.insert hloc hv, not_idle_updating hu,
        not_idle_updating hu⟩
  | localSame hk hn hr hu v hl hc =>
      exact ⟨hagree, hphase, h.nulDict, AllEntries.insert hloc hv, h.nulMain, h.terminated⟩
  | append hk hn hr hu =>
      refine ⟨hagree, hphase, h.nulDict, h.nulLocal, fun _ => ?_, fun _ => ?_⟩
      · rw [load_main_append (h.terminated hu) hclean]
        exact AllEntries.insert (h.nulMain hu) hv
      · exact (h.terminated hu).append (terminated_append_newline _)
  | main hk hn hr hu =>
      exact ⟨hagree, hphase, AllEntries.insert h.nulDict hv, h.nulLocal, not_idle_updating hu, not_idle_updating hu⟩
  | same hk hn hr hu v hl hc => exact ⟨hagree, hphase, h.nulDict, h.nulLocal, h.nulMain, h.terminated⟩

/-- During an update an RFC set appends its line, and nothing else touches the main file. -/
theorem SetStep.main_owed (hs : SetStep ord msg s t) (h : Merged g s)
    (hclean : CleanEntry msg.paramName.chars msg.value.chars) (hd : Undisturbed s (ord, .setValue msg))
    (hu : s.updateInProgress = true) : load (t.files.main.getD []) = (g.step (ord, .setValue msg)).rfc := by
  cases hs with
  | clearNone hk hc =>
      rw [step_aside (Or.inl hk)]
      exact h.updating hu
  | clearSome hk hc =>
      obtain ⟨k, hk'⟩ := List.exists_mem_of_ne_nil _ hc
      obtain ⟨hl, hcl⟩ := (mem_clearedKeys ord).mp hk'
      exact absurd ((hd hu).2 hk k hl) (by rw [hcl]; decide)
  | nonpersist hn hr =>
      rw [step_aside (Or.inr hn)]
      exact h.updating hu
  | refused hn hr =>
      rw [step_aside (Or.inr hn)]
      exact h.updating hu
  | localOnly hk hn hr hu' =>
      rw [step_webpa hk hn hr, if_pos (h.phase.trans hu)]
      exact h.updating hu
  | localMain hk hn hr hu' => exact not_idle_updating hu' hu
  | localSame hk hn hr hu' v hv hc => exact not_idle_updating hu' hu
  | append hk hn hr hu' => rw [step_rfc hk hn hr, load_main_append (h.terminated hu) hclean, h.updating hu]
  | main hk hn hr hu' => exact not_idle_updating hu' hu
  | same hk hn hr hu' v hv hc => exact not_idle_updating hu' hu

/-- Outside an update every set keeps the local keys in the main dictionary. -/
theorem SetStep.idle_owed (hs : SetStep ord msg s t) (h : Merged g s) (hu : s.updateInProgress = false) :
    ∀ k v, t.localDict.lookup k = some v →
      t.dict.lookup k = some (((g.step (ord, .setValue msg)).rfc.lookup k).getD v) := by
  have hloc := h.agree.loc
  have hidle := h.idle hu
  rw [← hloc] at hidle
  have hphase : ¬g.updating = true := by
    rw [h.phase, hu]
    decide
  cases hs with
  | clearNone hk hc =>
      rw [step_aside (Or.inl hk)]
      exact hidle
  | clearSome hk hc =>
      rw [step_aside (Or.inl hk)]
      intro k v (hl : (eraseAll _ _).lookup k = some v)
      show (eraseAll _ _).lookup k = _
      rw [lookup_eraseAll] at hl ⊢
      split at hl
      · cases hl
      · next hmem =>
        rw [if_neg hmem]
        exact hidle k v hl
  | nonpersist hn hr =>
      rw [step_aside (Or.inr hn)]
      exact h.idle hu
  | refused hn hr =>
      rw [step_aside (Or.inr hn)]
      exact h.idle hu
  | localOnly hk hn hr hu' => exact not_idle_updating hu hu'
  | localMain hk hn hr hu' =>
      rw [step_webpa hk hn hr, if_neg hphase]
      exact idle_insert_local hidle msg.paramName.chars msg.value.chars
  | localSame hk hn hr hu' v hv hc =>
      rw [step_webpa hk hn hr, if_neg hphase]
      obtain rfl := eq_of_cStr h.nulDict hv hc
      have := idle_insert_local hidle msg.paramName.chars msg.value.chars
      rw [insert_of_lookup hv] at this
      exact this
  | append hk hn hr hu' => exact not_idle_updating hu hu'
  | main hk hn hr hu' =>
      rw [step_rfc hk hn hr]
      exact idle_insert (h.idle hu) msg.paramName.chars msg.value.chars
  | same hk hn hr hu' v hv hc =>
      rw [step_rfc hk hn hr]
      obtain rfl := eq_of_cStr h.nulDict hv hc
      have := idle_insert (h.idle hu) msg.paramName.chars msg.value.chars
      rw [insert_of_lookup hv] at this
      exact this

theorem SetStep.merged (hs : SetStep ord msg s t) (h : Merged g s)
    (hclean : CleanEntry msg.paramName.chars msg.value.chars) (hd : Undisturbed s (ord, .setValue msg)) :
    Merged (g.step (ord, .setValue msg)) t := by
  refine ⟨hs.tracked h.toTracked hclean, fun hu => ?_, fun hu => ?_⟩
  · rw [hs.phase] at hu
    exact hs.main_owed h hclean hd hu
  · rw [hs.phase] at hu
    exact hs.idle_owed h hu

end

/-! ## The other requests -/

section
variable (ord : Order Text) {g : Owed} {s : XRFCStore}

/-- **An accepted `ClearDB` begins anew**, whatever happened before it. -/
theorem merged_clearAll (h : Tracked g s) (hu : s.updateInProgress = false) :
    Merged (g.step (ord, .clearAll)) (clearAll (Env.ok ord) s) := by
  have hagree := agree_clearAll ord h.agree
  have hphase : ¬g.updating = true := by
    rw [h.phase, hu]
    decide
  rw [clearAll_idle ord h.agree.initDone hu] at hagree ⊢
  rw [Owed.step]
  simp only [if_neg hphase]
  exact ⟨⟨hagree, rfl, h.nulDict, h.nulLocal, fun _ => allEntries_empty, fun _ => terminated_nil⟩, fun _ => load_nil,
    fun hf => by cases hf⟩

theorem clearAll_step (h : Tracked g s) (hu : s.updateInProgress = true) :
    g.step (ord, .clearAll) = g ∧ clearAll (Env.ok ord) s = s :=
  ⟨by rw [Owed.step, if_pos (h.phase.trans hu)], clearAll_updating ord h.agree.initDone hu⟩

theorem lookup_reload (h : Tracked g s) (k : Text) :
    (copyLocal ord (load (s.files.main.getD [])) (load (s.files.loc.getD []))).lookup k =
      ((load (s.files.main.getD [])).lookup k).or (s.localDict.lookup k) := by
  rw [lookup_copyLocal, h.agree.loc]

theorem tracked_reloadCache (h : Tracked g s) :
    Tracked (g.step (ord, .reloadCache)) (reloadCache (Env.ok ord) s) := by
  have hagree := agree_reloadCache ord h.agree
  cases hu : s.updateInProgress
  · rw [reloadCache_idle ord hu] at hagree ⊢
    exact ⟨hagree, hu.symm, h.nulDict, h.nulLocal, h.nulMain, h.terminated⟩
  · rw [reloadCache_updating ord hu] at hagree ⊢
    have hloc : NulFree (load (s.files.loc.getD [])) := by
      rw [h.agree.loc]
      exact h.nulLocal
    refine ⟨hagree, rfl, fun k v hv => ?_, hloc, (fun hf => by cases hf), fun hf => by cases hf⟩
    rw [lookup_reload ord h, Option.or_eq_some_iff] at hv
    rcases hv with hv | ⟨-, hv⟩
    · exact h.nulMain hu k v hv
    · exact h.nulLocal k v hv

theorem merged_reloadCache (h : Merged g s) :
    Merged (g.step (ord, .reloadCache)) (reloadCache (Env.ok ord) s) := by
  refine ⟨tracked_reloadCache ord h.toTracked, ?_, ?_⟩
  · intro hf
    cases hu : s.updateInProgress
    · rw [reloadCache_idle ord hu] at hf
      exact not_idle_updating hu hf
    · rw [reloadCache_updating ord hu] at hf
      cases hf
  · intro _
    cases hu : s.updateInProgress
    · rw [reloadCache_idle ord hu]
      exact h.idle hu
    · rw [reloadCache_updating ord hu]
      intro k v hl
      have hl' : s.localDict.lookup k = some v := by
        rw [← h.agree.loc]
        exact hl
      rw [lookup_reload ord h.toTracked, hl', h.updating hu]
      show _ = some ((g.rfc.lookup k).getD v)
      cases g.rfc.lookup k <;> rfl

end

/-- Values in the files are as a C string holds them. -/
structure NulFreeFiles (f : Files) : Prop where
  main : NulFree (load (f.main.getD []))
  loc : NulFree (load (f.loc.getD []))

theorem tracked_start (ord : Order Text) {f : Files} (hf : NulFreeFiles f) {g : Owed} (hg : g.updating = false) :
    Tracked g (start (Env.ok ord) f) := by
  have hagree := agree_start ord f
  rw [start_ok] at hagree ⊢
  exact ⟨hagree, hg, hf.main, hf.loc, (fun h => by cases h), fun h => by cases h⟩

theorem Tracked.nulFreeFiles {g : Owed} {s : XRFCStore} (h : Tracked g s) : NulFreeFiles s.files := by
  refine ⟨?_, by rw [h.agree.loc]; exact h.nulLocal⟩
  cases hu : s.updateInProgress
  · rw [h.agree.main hu]
    exact h.nulDict
  · exact h.nulMain hu

/-! ## Whole runs -/

theorem tracked_step (g : Owed) (s : XRFCStore) (i : Order Text × Request) (h : Tracked g s)
    (hi : RunRequest i.2) : Tracked (g.step i) (step s i) := by
  obtain ⟨ord, r⟩ := i
  cases r with
  | setValue msg => exact (setValue_setStep ord msg h.agree.initDone).tracked h hi.2
  | getValue name =>
      have : step s (ord, .getValue name) = s := congrArg Prod.snd (getValue_ok ord name h.agree.initDone)
      rw [this]
      exact h
  | clearAll =>
      show Tracked _ (clearAll (Env.ok ord) s)
      cases hu : s.updateInProgress
      · exact (merged_clearAll ord h hu).toTracked
      · obtain ⟨hg, hs⟩ := clearAll_step ord h hu
        rw [hg, hs]
        exact h
  | reloadCache => exact tracked_reloadCache ord h
  | restart => exact tracked_start ord h.nulFreeFiles rfl

theorem merged_step (g : Owed) (s : XRFCStore) (i : Order Text × Request) (h : Merged g s)
    (hi : RunRequest i.2 ∧ Undisturbed s i) : Merged (g.step i) (step s i) := by
  obtain ⟨ord, r⟩ := i
  cases r with
  | setValue msg => exact (setValue_setStep ord msg h.agree.initDone).merged h hi.1.2 hi.2
  | getValue name =>
      have : step s (ord, .getValue name) = s := congrArg Prod.snd (getValue_ok ord name h.agree.initDone)
      rw [this]
      exact h
  | clearAll =>
      show Merged _ (clearAll (Env.ok ord) s)
      cases hu : s.updateInProgress
      · exact merged_clearAll ord h.toTracked hu
      · obtain ⟨hg, hs⟩ := clearAll_step ord h.toTracked hu
        rw [hg, hs]
        exact h
  | reloadCache => exact merged_reloadCache ord h
  | restart =>
      have hu : s.updateInProgress = false := by
        by_contra hu
        exact (hi.2 (Bool.eq_true_of_not_eq_false hu)).1 rfl
      have : step s (ord, .restart) = s := start_files ord h.agree hu
      rw [this]
      exact ⟨⟨h.agree, hu.symm, h.nulDict, h.nulLocal, h.nulMain, h.terminated⟩, h.updating, h.idle⟩

/-- The local settings of the files are all in the main store. -/
def MergedFiles (f : Files) : Prop :=
  ∀ k v, (load (f.loc.getD [])).lookup k = some v → (load (f.main.getD [])).lookup k = some v

theorem merged_start (ord : Order Text) {f : Files} (hf : NulFreeFiles f) (hm : MergedFiles f) :
    Merged Owed.init (start (Env.ok ord) f) := by
  refine ⟨tracked_start ord hf rfl, ?_, ?_⟩
  · rw [start_ok]
    intro h
    cases h
  · rw [start_ok]
    intro _ k v hl
    exact hm k v hl

/-- The requests `l` that come after `pre` begin with an accepted `ClearDB`, or with the run itself when the
files it starts from are merged. -/
def Anew (f : Files) (ord : Order Text) (pre l : List (Order Text × Request)) : Prop :=
  pre = [] ∧ MergedFiles f ∨
    (run step (start (Env.ok ord) f) pre).updateInProgress = false ∧ ∃ o l', l = (o, .clearAll) :: l'

/-- **Local settings are in the main store whenever no update is going on**, under the RFC value if one is
owed, from every accepted `ClearDB` on until an update is disturbed. -/
theorem local_settings_survive (f : Files) (hf : NulFreeFiles f) (ord : Order Text)
    (pre l : List (Order Text × Request)) (hpre : ∀ i ∈ pre, RunRequest i.2) (hl : ∀ i ∈ l, RunRequest i.2)
    (h₀ : Anew f ord pre l) (hd : Along step Undisturbed (run step (start (Env.ok ord) f) pre) l) :
    let s := run step (start (Env.ok ord) f) (pre ++ l)
    let g := run Owed.step Owed.init (pre ++ l)
    s.updateInProgress = false →
      ∀ k v, s.localDict.lookup k = some v → s.dict.lookup k = some ((g.rfc.lookup k).getD v) := by
  intro s g hu
  have hpre' : Tracked (run Owed.step Owed.init pre) (run step (start (Env.ok ord) f) pre) :=
    Along.ghost tracked_step (tracked_start ord hf rfl) (along_of_forall hpre)
  have hok := Along.and_forall hl hd
  have h : Merged g s := by
    show Merged (run _ _ (pre ++ l)) (run _ _ (pre ++ l))
    rw [run_append, run_append]
    rcases h₀ with ⟨rfl, hm⟩ | ⟨hidle, o, l', rfl⟩
    · exact Along.ghost merged_step (merged_start ord hf hm) hok
    · rw [run_cons, run_cons]
      exact Along.ghost merged_step (merged_clearAll o hpre' hidle) hok.2
  exact h.idle hu

/-- A restart in the middle of an update. -/
def restartInCycle : List (Order Text × Request) :=
  [(byKey, setLiteral "Device.A" "2" .webpa), (byKey, .clearAll), (byKey, .restart)]

/-- A cycle in which RFC and WebPA set the same parameter, and a restart after it. -/
def cycleThenRestart : List (Order Text × Request) :=
  [(byKey, .clearAll), (byKey, setLiteral "Device.A" "1" .rfc), (byKey, setLiteral "Device.A" "2" .webpa),
    (byKey, .reloadCache), (byKey, .restart)]

theorem local_settings_survive_restart :
    let s := run step (start (Env.ok byKey) noFiles) (restartInCycle ++ cycleThenRestart)
    s.localDict.lookup "Device.A".toList = some "2".toList ∧
      s.dict.lookup "Device.A".toList = some "1".toList := by
  refine ⟨by decide, ?_⟩
  refine local_settings_survive noFiles ⟨allEntries_empty, allEntries_empty⟩ byKey restartInCycle cycleThenRestart
    (by decide) (by decide) (Or.inr ⟨by decide, _, _, rfl⟩) ?_ (by decide) "Device.A".toList "2".toList (by decide)
  refine ⟨fun h => absurd h (by decide), fun _ => ⟨by simp [setLiteral], fun h => absurd h (by decide)⟩,
    fun _ => ⟨by simp [setLiteral], fun h => absurd h (by decide)⟩, fun _ => ⟨by simp, trivial⟩,
    fun h => absurd h (by decide), trivial⟩

/-- A WebPA set after the cycle replaces the RFC value in the main store. -/
theorem webpa_replaces_rfc_value :
    let l := [(byKey, .clearAll), (byKey, setLiteral "Device.A" "1" .rfc), (byKey, .reloadCache),
      (byKey, setLiteral "Device.A" "2" .webpa)]
    let s := run step (start (Env.ok byKey) noFiles) l
    (∀ i ∈ l, RunRequest i.2) ∧ s.updateInProgress = false ∧
      s.localDict.lookup "Device.A".toList = some "2".toList ∧
      lastOf (rfcSets l) "Device.A".toList = some "1".toList ∧
      s.dict.lookup "Device.A".toList = some "2".toList := by
  decide

end Tr69HostIf.RFC
