import Tr69HostIf.RFC.Cycle

/-!
# Non-persistent parameters across update cycles

`clearAll` truncates the non-persistent file and leaves its dictionary, and every set of a non-persistent
parameter writes the whole dictionary. `NonpersistWindow d₀ ps s` : in the middle of a cycle that started
with the dictionary `d₀` and has made the sets `ps`, the dictionary is `d₀` with `ps` assigned, and the file
is empty as long as `ps` is. `nonpersist_cycle` : when the cycle ends with exactly its own sets.
-/

namespace Tr69HostIf.RFC
open Store

/-- The entry an RFC set of a non-persistent parameter carries. -/
def nonpersistSet : Request → List (Text × Text)
  | .setValue msg =>
      if nonPersistent msg.paramName.chars = true ∧ msg.requestor = .rfc then
        [(msg.paramName.chars, msg.value.chars)]
      else []
  | _ => []

def nonpersistSets (l : List (Order Text × Request)) : List (Text × Text) := l.flatMap fun i => nonpersistSet i.2

/-- A request that does not end the cycle. -/
def InCycle : Request → Prop
  | .reloadCache | .restart => False
  | _ => True

/-- A request whose parameter name fits a line. -/
def CleanName : Request → Prop
  | .setValue msg => '=' ∉ msg.paramName.chars ∧ '\n' ∉ msg.paramName.chars
  | _ => True

theorem start_initDone (ord : Order Text) (f : Files) : (start (Env.ok ord) f).initDone = true := by rw [start_ok]

/-- An initialised store whose non-persistent keys fit a line. -/
structure KeysFit (s : XRFCStore) : Prop where
  initDone : s.initDone = true
  keys : ∀ k ∈ s.nonpersistDict, '=' ∉ k ∧ '\n' ∉ k

theorem keysFit_load (t : Text) : ∀ k ∈ load t, '=' ∉ k ∧ '\n' ∉ k := by
  intro k hk
  obtain ⟨v, hv⟩ := Finmap.mem_iff.mp hk
  have h := load_clean t k v hv
  exact ⟨h.key_eq, h.key_line⟩

theorem SetStep.nonpersist_eq {ord : Order Text} {msg : MsgData} {s t : XRFCStore} (hs : SetStep ord msg s t) :
    t.initDone = s.initDone ∧ t.updateInProgress = s.updateInProgress ∧
      (nonpersistSet (.setValue msg) = [] ∧ t.nonpersistDict = s.nonpersistDict ∧
          t.files.nonpersist = s.files.nonpersist ∨
        nonpersistSet (.setValue msg) = [(msg.paramName.chars, msg.value.chars)] ∧
          t = withNonpersist ord msg.paramName.chars msg.value.chars s) := by
  have hnone : nonPersistent msg.paramName.chars = false → nonpersistSet (.setValue msg) = [] := by
    intro hn
    simp [nonpersistSet, hn]
  have hclear : msg.paramName.chars = clearParam → nonpersistSet (.setValue msg) = [] := by
    intro hk
    exact hnone (by rw [hk]; exact nonPersistent_clearParam)
  cases hs with
  | clearNone hk hc => exact ⟨rfl, rfl, Or.inl ⟨hclear hk, rfl, rfl⟩⟩
  | clearSome hk hc => exact ⟨rfl, rfl, Or.inl ⟨hclear hk, rfl, rfl⟩⟩
  | nonpersist hn hr => exact ⟨rfl, rfl, Or.inr ⟨by rw [nonpersistSet, if_pos ⟨hn, hr⟩], rfl⟩⟩
  | refused hn hr => exact ⟨rfl, rfl, Or.inl ⟨by rw [nonpersistSet, if_neg fun h => hr h.2], rfl, rfl⟩⟩
  | localOnly hk hn hr hu => exact ⟨rfl, rfl, Or.inl ⟨hnone hn, rfl, rfl⟩⟩
  | localMain hk hn hr hu => exact ⟨rfl, rfl, Or.inl ⟨hnone hn, rfl, rfl⟩⟩
  | localSame hk hn hr hu v hv hc => exact ⟨rfl, rfl, Or.inl ⟨hnone hn, rfl, rfl⟩⟩
  | append hk hn hr hu => exact ⟨rfl, rfl, Or.inl ⟨hnone hn, rfl, rfl⟩⟩
  | main hk hn hr hu => exact ⟨rfl, rfl, Or.inl ⟨hnone hn, rfl, rfl⟩⟩
  | same hk hn hr hu v hv hc => exact ⟨rfl, rfl, Or.inl ⟨hnone hn, rfl, rfl⟩⟩

theorem keysFit_start (ord : Order Text) (f : Files) : KeysFit (start (Env.ok ord) f) := by
  rw [start_ok]
  exact ⟨rfl, keysFit_load _⟩

theorem keysFit_step (s : XRFCStore) (i : Order Text × Request) (h : KeysFit s) (hi : CleanName i.2) :
    KeysFit (step s i) := by
  obtain ⟨ord, r⟩ := i
  cases r with
  | setValue msg =>
      obtain ⟨hinit, -, hcase⟩ := (setValue_setStep ord msg h.initDone).nonpersist_eq
      refine ⟨hinit.trans h.initDone, ?_⟩
      rcases hcase with ⟨-, hd, -⟩ | ⟨-, ht⟩
      · show ∀ k ∈ (setValue (Env.ok ord) msg s).2.nonpersistDict, _
        rw [hd]
        exact h.keys
      · show ∀ k ∈ (setValue (Env.ok ord) msg s).2.nonpersistDict, _
        rw [ht]
        intro k hk
        rcases Finmap.mem_insert.mp hk with rfl | hk
        · exact hi
        · exact h.keys k hk
  | getValue name =>
      have : step s (ord, .getValue name) = s := congrArg Prod.snd (getValue_ok ord name h.initDone)
      rw [this]
      exact h
  | clearAll =>
      show KeysFit (clearAll (Env.ok ord) s)
      cases hu : s.updateInProgress
      · rw [clearAll_idle ord h.initDone hu]
        exact ⟨h.initDone, h.keys⟩
      · rw [clearAll_updating ord h.initDone hu]
        exact h
  | reloadCache =>
      show KeysFit (reloadCache (Env.ok ord) s)
      cases hu : s.updateInProgress
      · rw [reloadCache_idle ord hu]
        exact h
      · rw [reloadCache_updating ord hu]
        exact ⟨rfl, keysFit_load _⟩
  | restart => exact keysFit_start ord s.files

theorem step_initDone (s : XRFCStore) (i : Order Text × Request) (h : s.initDone = true) :
    (step s i).initDone = true := by
  obtain ⟨ord, r⟩ := i
  cases r with
  | setValue msg => exact (setValue_setStep ord msg h).nonpersist_eq.1.trans h
  | getValue name => exact (congrArg (·.2.initDone) (getValue_ok ord name h)).trans h
  | clearAll =>
      show (clearAll (Env.ok ord) s).initDone = true
      cases hu : s.updateInProgress
      · rw [clearAll_idle ord h hu]
        exact h
      · rw [clearAll_updating ord h hu]
        exact h
  | reloadCache =>
      show (reloadCache (Env.ok ord) s).initDone = true
      cases hu : s.updateInProgress
      · rw [reloadCache_idle ord hu]
        exact h
      · rw [reloadCache_updating ord hu]
  | restart => exact start_initDone ord s.files

/-- The store in the middle of a cycle, as far as the non-persistent parameters go. -/
structure NonpersistWindow (d₀ : Dict Text Text) (ps : List (Text × Text)) (s : XRFCStore) : Prop where
  initDone : s.initDone = true
  updating : s.updateInProgress = true
  dict : s.nonpersistDict = assign d₀ ps
  file : ps = [] ∧ s.files.nonpersist = some [] ∨
    ps ≠ [] ∧ ∃ ord : Order Text, s.files.nonpersist = some (render (ord.enum (assign d₀ ps)))

theorem nonpersistWindow_step (d₀ : Dict Text Text) (ps : List (Text × Text)) (s : XRFCStore)
    (i : Order Text × Request) (h : NonpersistWindow d₀ ps s) (hi : InCycle i.2) :
    NonpersistWindow d₀ (ps ++ nonpersistSet i.2) (step s i) := by
  obtain ⟨ord, r⟩ := i
  cases r with
  | setValue msg =>
      obtain ⟨hinit, hupd, hcase⟩ := (setValue_setStep ord msg h.initDone).nonpersist_eq
      rcases hcase with ⟨hs, hd, hf⟩ | ⟨hs, ht⟩
      · show NonpersistWindow d₀ (ps ++ nonpersistSet (.setValue msg)) (setValue (Env.ok ord) msg s).2
        rw [hs, List.append_nil]
        exact ⟨hinit.trans h.initDone, hupd.trans h.updating, hd.trans h.dict, by rw [hf]; exact h.file⟩
      · show NonpersistWindow d₀ (ps ++ nonpersistSet (.setValue msg)) (setValue (Env.ok ord) msg s).2
        have hins : s.nonpersistDict.insert msg.paramName.chars msg.value.chars =
            assign d₀ (ps ++ [(msg.paramName.chars, msg.value.chars)]) := by
          rw [assign_append, ← h.dict]
          rfl
        rw [hs, ht]
        refine ⟨h.initDone, h.updating, hins, Or.inr ⟨by simp, ord, ?_⟩⟩
        rw [← hins]
        rfl
  | getValue name =>
      have : step s (ord, .getValue name) = s := congrArg Prod.snd (getValue_ok ord name h.initDone)
      rw [this]
      simpa [nonpersistSet] using h
  | clearAll =>
      have : step s (ord, .clearAll) = s := clearAll_updating ord h.initDone h.updating
      rw [this]
      simpa [nonpersistSet] using h
  | reloadCache => exact hi.elim
  | restart => exact hi.elim

/-- A dictionary with clean assignments to all of its keys is written back as the assignments alone. -/
theorem load_assign_covered (ord : Order Text) {d₀ : Dict Text Text} {ps : List (Text × Text)}
    (hclean : CleanDict (ofList ps)) (hkeys : ∀ k ∈ d₀, k ∈ ps.map Prod.fst) :
    load (render (ord.enum (assign d₀ ps))) = ofList ps := by
  have hassign : assign d₀ ps = ofList ps := by
    refine Finmap.ext_lookup fun k => ?_
    rw [lookup_assign, lookup_ofList]
    cases hl : lastOf ps k with
    | some v => rfl
    | none =>
        rw [Option.none_or, Finmap.lookup_eq_none]
        exact fun hk => lastOf_eq_none.mp hl (hkeys k hk)
  rw [hassign, load_render_enum ord hclean]

/-- A key that fits a line and has not been assigned is written back with the others. -/
theorem covered_of_load_assign (ord : Order Text) {d₀ : Dict Text Text} (hd : ∀ k ∈ d₀, '=' ∉ k ∧ '\n' ∉ k)
    {ps : List (Text × Text)} (h : load (render (ord.enum (assign d₀ ps))) = ofList ps) :
    CleanDict (ofList ps) ∧ ∀ k ∈ d₀, k ∈ ps.map Prod.fst := by
  refine ⟨by rw [← h]; exact load_clean _, fun k hk => ?_⟩
  have hmem : k ∈ assign d₀ ps := by
    obtain ⟨v, hv⟩ := Finmap.mem_iff.mp hk
    rw [← Finmap.lookup_isSome, lookup_assign, hv, Option.isSome_or]
    simp
  obtain ⟨v, hv⟩ := Finmap.mem_iff.mp hmem
  have hload := mem_load_render (hd k hk).1 (hd k hk).2 ((ord.mem _ k v).mpr hv)
  rw [h] at hload
  rwa [← Finmap.lookup_isSome, lookup_ofList, lastOf_isSome] at hload

/-- What `reloadCache` loads at the end of a cycle, from the window's file. -/
theorem nonpersist_reload (f : Files) (ord : Order Text) (pre : List (Order Text × Request))
    (hidle : (run step (start (Env.ok ord) f) pre).updateInProgress = false) (ord₀ ord₁ : Order Text)
    (l : List (Order Text × Request)) (hl : ∀ i ∈ l, InCycle i.2) :
    let s := run step (start (Env.ok ord) f) pre
    let s' := reloadCache (Env.ok ord₁) (run step (clearAll (Env.ok ord₀) s) l)
    nonpersistSets l = [] ∧ s'.nonpersistDict = ∅ ∨
      nonpersistSets l ≠ [] ∧ ∃ ord' : Order Text,
        s'.nonpersistDict = load (render (ord'.enum (assign s.nonpersistDict (nonpersistSets l)))) := by
  intro s s'
  have hinit : s.initDone = true :=
    Along.invariant (fun s i hs _ => step_initDone s i hs) (start_initDone ord f)
      (along_of_forall fun _ _ => trivial)
  have hstart : NonpersistWindow s.nonpersistDict [] (clearAll (Env.ok ord₀) s) := by
    rw [clearAll_idle ord₀ hinit hidle]
    exact ⟨hinit, rfl, rfl, Or.inl ⟨rfl, rfl⟩⟩
  have hw : NonpersistWindow s.nonpersistDict (nonpersistSets l) (run step (clearAll (Env.ok ord₀) s) l) := by
    have := Along.history (fun i => nonpersistSet i.2) (nonpersistWindow_step s.nonpersistDict) hstart
      (along_of_forall hl)
    rwa [List.nil_append] at this
  have hs' : s'.nonpersistDict =
      load ((run step (clearAll (Env.ok ord₀) s) l).files.nonpersist.getD []) := by
    show (reloadCache _ _).nonpersistDict = _
    rw [reloadCache_updating ord₁ hw.updating]
    rfl
  rcases hw.file with ⟨hnil, hf⟩ | ⟨hne, ord', hf⟩
  · exact Or.inl ⟨hnil, by rw [hs', hf]; rfl⟩
  · exact Or.inr ⟨hne, ord', by rw [hs', hf]; rfl⟩

/-- **A cycle leaves exactly its own non-persistent sets if their values fit a line and it made none or set
every non-persistent key of before again; where the names of before fit a line, only then.** -/
theorem nonpersist_cycle (f : Files) (ord : Order Text) (pre : List (Order Text × Request))
    (hidle : (run step (start (Env.ok ord) f) pre).updateInProgress = false)
    (ord₀ ord₁ : Order Text) (l : List (Order Text × Request)) (hl : ∀ i ∈ l, InCycle i.2) :
    let s := run step (start (Env.ok ord) f) pre
    let s' := reloadCache (Env.ok ord₁) (run step (clearAll (Env.ok ord₀) s) l)
    let covered := CleanDict (ofList (nonpersistSets l)) ∧
      (nonpersistSets l = [] ∨ ∀ k ∈ s.nonpersistDict, k ∈ (nonpersistSets l).map Prod.fst)
    (covered → s'.nonpersistDict = ofList (nonpersistSets l)) ∧
      ((∀ i ∈ pre, CleanName i.2) → s'.nonpersistDict = ofList (nonpersistSets l) → covered) := by
  intro s s' covered
  rcases nonpersist_reload f ord pre hidle ord₀ ord₁ l hl with ⟨hnil, hd⟩ | ⟨hne, ord', hd⟩
  · have hcov : covered := ⟨by rw [hnil]; exact cleanDict_empty, Or.inl hnil⟩
    refine ⟨fun _ => ?_, fun _ _ => hcov⟩
    rw [hnil]
    exact hd
  · refine ⟨fun hcov => ?_, fun hpre h => ?_⟩
    · have hkeys := hcov.2.resolve_left hne
      exact hd.trans (load_assign_covered ord' hcov.1 hkeys)
    · have hs : KeysFit s := Along.invariant keysFit_step (keysFit_start ord f) (along_of_forall hpre)
      obtain ⟨hclean, hkeys⟩ := covered_of_load_assign ord' hs.keys (hd.symm.trans h)
      exact ⟨hclean, Or.inr hkeys⟩

/-- A store with one non-persistent value. -/
def nonpersistStore : Files :=
  { noFiles with
    nonpersist := some "Device.DeviceInfo.X_RDKCENTRAL-COM_RFC.Feature.NonPersistent.A=1\n".toList }

theorem nonpersist_cycle_sameKey :
    let l := [(byKey, setLiteral "Device.DeviceInfo.X_RDKCENTRAL-COM_RFC.Feature.NonPersistent.A" "2" .rfc)]
    let s := start (Env.ok byKey) nonpersistStore
    (reloadCache (Env.ok byKey) (run step (clearAll (Env.ok byKey) s) l)).nonpersistDict =
      ofList (nonpersistSets l) :=
  (nonpersist_cycle nonpersistStore byKey [] (by decide +kernel) byKey byKey _
    (by simp [setLiteral, InCycle])).1 ⟨by
      rw [← load_render_enum_iff byKey]
      decide +kernel, Or.inr (by decide +kernel)⟩

/-- A cycle that sets another non-persistent key brings the one of before back. -/
theorem nonpersist_key_survives_cycle :
    let l := [(byKey, setLiteral "Device.DeviceInfo.X_RDKCENTRAL-COM_RFC.Feature.NonPersistent.B" "2" .rfc)]
    let s := start (Env.ok byKey) nonpersistStore
    let s' := reloadCache (Env.ok byKey) (run step (clearAll (Env.ok byKey) s) l)
    s.updateInProgress = false ∧ (∀ i ∈ l, InCycle i.2 ∧ CleanRequest i.2) ∧
      "Device.DeviceInfo.X_RDKCENTRAL-COM_RFC.Feature.NonPersistent.A".toList ∈ s'.nonpersistDict ∧
      "Device.DeviceInfo.X_RDKCENTRAL-COM_RFC.Feature.NonPersistent.A".toList ∉ (nonpersistSets l).map Prod.fst := by
  refine ⟨by decide +kernel, ?_, by decide +kernel, by decide +kernel⟩
  intro i hi
  rw [List.mem_singleton] at hi
  subst hi
  exact ⟨trivial, by decide +kernel⟩

end Tr69HostIf.RFC
