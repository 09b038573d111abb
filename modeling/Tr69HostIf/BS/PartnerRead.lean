import Tr69HostIf.BS.PartnerHearing

/-!
# When the partner id file is read

`lastClose_read` : when the thread is at rest after the last close of the file, it has read the file since
if and only if it was `Hearing` at that close. A read that is due (`WillRead`) is made or stays due; where
none is due the thread is `Silent` up to the next close. `quiet_of_calls` : left alone, the thread comes to
rest.
-/

namespace Tr69HostIf.BS.AuthService
open Store

/-! ## Reading the file -/

/-- The thread is about to read the file, or an event that makes it read is on its way. -/
def WillRead (s : State) : Prop := s.pc = .script ∨ ∃ e ∈ s.pending, Trigger s e

section
variable {s t : State}

theorem Inv.willRead_close (h : Inv s) (hh : Hearing s) {c : Text} (hfile : s.fs.tree = .file c) :
    WillRead (step s .close) := by
  have hout : Outside s (step s .close) := outside_step s fun _ _ h => by cases h
  have hfound : s.foundAuthService = true :=
    (h.found (hh.elim Or.inr fun hh => Or.inl hh.1)).2
  have hstep : step s .close = notify (fileClosed .file) (notify (fileClosed .authService) s) := by simp [step, hfile]
  have hposted : ∀ w ∈ s.watches, w = .authService ∨ w = .file → fileClosed w ∈ (step s .close).pending := by
    intro w hw hwd
    refine List.mem_append_right _ ?_
    rw [hstep]
    rcases hwd with rfl | rfl
    · unfold notify
      rw [if_pos (show (fileClosed .authService).wd ∈ _ from hw)]
      split
      · exact mem_post.mpr (Or.inl (mem_post.mpr (Or.inr rfl)))
      · exact mem_post.mpr (Or.inr rfl)
    · have hw' : (fileClosed .file).wd ∈ (notify (fileClosed .authService) s).watches := by
        unfold notify
        split <;> exact hw
      unfold notify at hw' ⊢
      rw [if_pos hw']
      exact mem_post.mpr (Or.inr rfl)
  unfold WillRead Trigger
  rw [hout.foundAuthService, hout.added]
  right
  rcases hh with hf | ⟨ha, hadd | hm⟩
  · exact ⟨_, hposted _ hf (Or.inr rfl), hfound, Or.inr ⟨h.file hf, rfl⟩⟩
  · exact ⟨_, hposted _ ha (Or.inl rfl), hfound, Or.inr ⟨hadd, rfl⟩⟩
  · cases hadd : s.partnerIdWatchAdded with
    | true => exact ⟨_, hposted _ ha (Or.inl rfl), hfound, Or.inr ⟨rfl, rfl⟩⟩
    | false => exact ⟨_, hout.pending_kept hm, hfound, Or.inl ⟨rfl, rfl⟩⟩

theorem Inv.no_trigger (h : Inv s) (ha : .authService ∉ s.watches) (hf : .file ∉ s.watches) {e : Event}
    (he : e ∈ s.pending) : ¬Trigger s e := by
  rintro ⟨-, ⟨-, rfl⟩ | ⟨-, hm⟩⟩
  · exact ha (h.known.made _ he rfl (fun h => by cases h)).2
  · exact (h.known.closed e he hm).elim ha hf

theorem Inv.willRead_handled {x e : Event} {rest : List Event} (h : Inv s) (hpc : s.pc = .handle (x :: rest))
    (ht : Handled x rest s t) (he : e ∈ s.pending) (htr : Trigger s e) : WillRead t := by
  have hunfound : ¬(s.foundWWW = true ∧ s.foundAuthService = true) → False := by
    intro hf
    obtain ⟨ha, hw, -⟩ := h.unfound hf
    exact h.no_trigger ha hw he htr
  cases ht with
  | skip hskip =>
      have hx : e ≠ x := fun hx => hskip (hx ▸ htr)
      exact Or.inr ⟨e, by simpa [State.pending, Pc.rest, hpc, hx] using he, htr⟩
  | www hw _ => exact (hunfound (by simp [hw])).elim
  | authService hw hfound => exact (hunfound (by simp [hfound])).elim
  | made => exact Or.inl rfl
  | closed => exact Or.inl rfl

/-- A read that is due is made, or stays due. -/
theorem Inv.willRead_call (h : Inv s) (hr : WillRead s) (k : ℕ) (stored : Text) :
    s.pc = .script ∨ WillRead (callStep k stored s) := by
  rcases hr with hr | ⟨e, he, ht⟩
  · exact Or.inl hr
  have hlooking : ¬s.pc.Looking := by
    intro hl
    obtain ⟨ha, hf, -⟩ := h.looking hl
    exact h.no_trigger ha hf he ht
  cases hpc : s.pc with
  | watchOpt | statWww | statAuthService | statFile | watch _ _ | statAgain _ =>
      exact absurd (by simp [hpc, Pc.Looking]) hlooking
  | script => exact Or.inl rfl
  | wait =>
      right
      simp only [callStep, hpc]
      split
      · exact Or.inr ⟨e, he, ht⟩
      · exact Or.inr ⟨e, by simpa [State.pending, Pc.rest, hpc] using he, ht⟩
  | handle batch =>
      right
      cases batch with
      | nil =>
          simp only [callStep, hpc]
          exact Or.inr ⟨e, by simpa [State.pending, Pc.rest, hpc] using he, ht⟩
      | cons x rest =>
          simp only [callStep, hpc]
          exact h.willRead_handled hpc (handleEvent_handled x rest s) he ht

/-- Nothing will make the thread read the file before it is closed again. -/
structure Silent (s : State) : Prop where
  file : s.fs.tree.hasFile = true
  notScript : s.pc ≠ .script
  noTrigger : s.partnerIdWatchAdded = false ∧ fileMade ∉ s.pending ∨
    s.partnerIdWatchAdded = true ∧ .authService ∉ s.watches ∧ ∀ e ∈ s.pending, e.mask ≠ .closeWrite

theorem Inv.silent_close (h : Inv s) (hh : ¬Hearing s) (hfile : s.fs.tree.hasFile = true) : Silent (step s .close) := by
  have hout : Outside s (step s .close) := outside_step s fun _ _ h => by cases h
  obtain ⟨hf, ha⟩ : .file ∉ s.watches ∧ ¬(.authService ∈ s.watches ∧ (s.partnerIdWatchAdded = true ∨ fileMade ∈ s.pending)) :=
    by simpa only [Hearing, not_or] using hh
  have hadd : s.partnerIdWatchAdded = false := by
    by_contra hadd
    have hadd : s.partnerIdWatchAdded = true := by simpa using hadd
    exact (h.added hadd).elim (fun hw => ha ⟨hw, Or.inl hadd⟩) hf
  refine ⟨hout.file hfile, ?_, Or.inl ⟨by rw [hout.added, hadd], fun hm => ?_⟩⟩
  · rw [hout.pc]
    intro hpc
    rw [h.script hpc] at hadd
    cases hadd
  · rcases hout.pending hm with hm | ⟨hm, hold⟩
    · exact ha ⟨(h.known.made _ hm rfl (fun h => by cases h)).2, Or.inr hm⟩
    · have htree := (hout.made _ hm hold rfl (fun h => by cases h)).2.2
      rw [htree] at hfile
      cases hfile

/-- Without a close of the file the others report none but in its directory. -/
theorem closed_new {a : Action} (ha : ∀ k stored, a ≠ .call k stored) (hclose : a ≠ .close) {e : Event}
    (he : e ∈ (step s a).queue) (hold : e ∉ s.queue) (hm : e.mask = .closeWrite) : .authService ∈ s.watches := by
  have hnotify : ∀ {x : Event} {u : State}, e ∈ (notify x u).queue → u.queue = s.queue → u.watches = s.watches →
      (x.mask = .closeWrite → x.wd = .authService) → .authService ∈ s.watches := by
    intro x u hmem hq hw hx
    unfold notify at hmem
    split at hmem
    · next hwd =>
      rcases mem_post.mp hmem with hmem | rfl
      · exact absurd (hq ▸ hmem) hold
      · rw [hw, hx hm] at hwd
        exact hwd
    · exact absurd (hq ▸ hmem) hold
  cases a with
  | call k stored => exact absurd rfl (ha k stored)
  | close => exact absurd rfl hclose
  | mkdirWww | mkdirAuthService | create =>
      simp only [step] at he
      split at he
      · exact hnotify he rfl rfl fun h => by cases h
      · exact absurd he hold
  | write t =>
      simp only [step] at he
      split at he <;> exact absurd he hold
  | foreign x =>
      simp only [step] at he
      split at he
      · next hx => exact hnotify he rfl rfl hx.2.2
      · exact absurd he hold
  | bootstrap t => exact absurd he hold

theorem Silent.handled {x : Event} {rest : List Event} (hs : Silent s) (h : Inv s) (hpc : s.pc = .handle (x :: rest))
    (ht : Handled x rest s t) : Silent t ∧ t.reads = s.reads := by
  have hx : x ∈ s.pending := by simp [State.pending, hpc, Pc.rest]
  have hsub : ∀ e ∈ rest ++ s.queue, e ∈ s.pending := by
    intro e he
    simp only [State.pending, hpc, Pc.rest, List.cons_append]
    exact List.mem_cons_of_mem _ he
  have hno : s.partnerIdWatchAdded = false ∧ fileMade ∉ rest ++ s.queue ∨
      s.partnerIdWatchAdded = true ∧ .authService ∉ s.watches ∧ ∀ e ∈ rest ++ s.queue, e.mask ≠ .closeWrite :=
    hs.noTrigger.imp (And.imp_right fun hn hm => hn (hsub _ hm))
      (And.imp_right (And.imp_right fun hn e he => hn e (hsub e he)))
  cases ht with
  | skip _ => exact ⟨⟨hs.file, (fun h => by cases h), hno⟩, rfl⟩
  | www _ _ => exact ⟨⟨hs.file, (fun h => by cases h), hno⟩, rfl⟩
  | authService _ _ => exact ⟨⟨hs.file, (fun h => by cases h), hno⟩, rfl⟩
  | made hfound hadd hm hn =>
      obtain ⟨rfl, -⟩ := h.known.made x hx hn hm
      rcases hs.noTrigger with ⟨-, hno⟩ | ⟨hadd', -⟩
      · exact absurd hx hno
      · rw [hadd] at hadd'
        cases hadd'
  | closed hfound hadd hm =>
      rcases hs.noTrigger with ⟨hadd', -⟩ | ⟨-, -, hno⟩
      · rw [hadd] at hadd'
        cases hadd'
      · exact absurd hm (hno x hx)

theorem Silent.call (hs : Silent s) (h : Inv s) (k : ℕ) (stored : Text) :
    Silent (callStep k stored s) ∧ (callStep k stored s).reads = s.reads := by
  obtain ⟨hfile, hscript, hno⟩ := hs
  cases hpc : s.pc with
  | script => exact absurd hpc hscript
  | watchOpt | statWww | statFile | statAgain _ =>
      have hadd := (h.looking (by simp [hpc, Pc.Looking])).2.2
      refine ⟨⟨by rw [callStep_tree]; exact hfile, by simp [callStep, hpc], ?_⟩, by simp [callStep, hpc]⟩
      simpa [callStep, hpc, hadd, State.pending, Pc.rest] using hno
  | statAuthService =>
      have hadd := (h.looking (by simp [hpc, Pc.Looking])).2.2
      have hpend : fileMade ∉ s.queue := by simpa [hadd, State.pending, hpc, Pc.rest] using hno
      refine ⟨⟨by rw [callStep_tree]; exact hfile, ?_, Or.inl ⟨by simp [callStep, hpc, hadd], ?_⟩⟩, by simp [callStep, hpc]⟩
      all_goals
        cases hw : s.foundWWW <;> cases ha : s.fs.tree.hasAuthService <;>
          simp [callStep, hpc, hw, ha, State.pending, Pc.rest, hpend]
  | watch w rest =>
      obtain ⟨ha, hf, hadd⟩ := h.looking (by simp [hpc, Pc.Looking])
      have hpend : (callStep k stored s).pending = s.pending := by simp [callStep, hpc, State.pending, Pc.rest]
      have hmade : fileMade ∉ s.pending := fun hm => ha (h.known.made _ hm rfl (fun h => by cases h)).2
      have hclosed : ∀ e ∈ s.pending, e.mask ≠ .closeWrite := fun e he hm => (h.known.closed e he hm).elim ha hf
      refine ⟨⟨by rw [callStep_tree]; exact hfile, by simp [callStep, hpc], ?_⟩, by simp [callStep, hpc]⟩
      rw [hpend]
      by_cases hw : w = .file
      · exact Or.inr ⟨by simp [callStep, hpc, hw], by simp [callStep, hpc, hw, ha], hclosed⟩
      · exact Or.inl ⟨by simp [callStep, hpc, hw, hadd], hmade⟩
  | wait =>
      simp only [callStep, hpc]
      split
      · exact ⟨⟨hfile, hscript, hno⟩, rfl⟩
      · exact ⟨⟨hfile, (fun h => by cases h), by simpa [State.pending, Pc.rest, hpc] using hno⟩, rfl⟩
  | handle batch =>
      cases batch with
      | nil =>
          simp only [callStep, hpc]
          exact ⟨⟨hfile, (fun h => by cases h), by simpa [State.pending, Pc.rest, hpc] using hno⟩, trivial⟩
      | cons x rest =>
          simp only [callStep, hpc]
          exact Silent.handled ⟨hfile, hscript, hno⟩ h hpc (handleEvent_handled x rest s)

theorem Silent.outside (hs : Silent s) {a : Action} (ha : ∀ k stored, a ≠ .call k stored) (hclose : a ≠ .close) :
    Silent (step s a) ∧ (step s a).reads = s.reads := by
  have hout := outside_step s ha
  refine ⟨⟨hout.file hs.file, hout.pc ▸ hs.notScript, ?_⟩, hout.reads⟩
  rw [hout.added, hout.watches]
  refine hs.noTrigger.imp (And.imp_right fun hn hm => ?_) (And.imp_right fun hn => ⟨hn.1, fun e he hm => ?_⟩)
  · rcases hout.pending hm with hm | ⟨hm, hold⟩
    · exact hn hm
    · have htree := (hout.made _ hm hold rfl (fun h => by cases h)).2.2
      have hfile := hs.file
      rw [htree] at hfile
      cases hfile
  · rcases hout.pending he with he | ⟨he, hold⟩
    · exact hn.2 e he hm
    · exact hn.1 (closed_new ha hclose he hold hm)

/-- The file has been read, or will be, since it was closed with the content `c`. -/
def Due (c : Text) (n : ℕ) (s : State) : Prop :=
  s.fs.tree = .file c ∧ n ≤ s.reads.length ∧
    (WillRead s ∨ n < s.reads.length ∧ s.reads.getLast? = some (some (getlines c).flatten))

theorem Outside.willRead (h : Outside s t) (hr : WillRead s) : WillRead t := by
  unfold WillRead Trigger
  rw [h.pc, h.foundAuthService, h.added]
  exact hr.imp id fun ⟨e, he, htr⟩ => ⟨e, h.pending_kept he, htr⟩

/-- Neither a write nor a close. -/
def Leaves (a : Action) : Prop := a ≠ .close ∧ ∀ t, a ≠ .write t

theorem Leaves.tree {a : Action} (ha : Leaves a) {c : Text} (hs : s.fs.tree = .file c) :
    (step s a).fs.tree = .file c := by
  cases a with
  | close => exact absurd rfl ha.1
  | write t => exact absurd rfl (ha.2 t)
  | call k stored => exact (callStep_tree s k stored).trans hs
  | foreign e =>
      simp only [step]
      split
      · rw [notify_tree, hs]
      · exact hs
  | mkdirWww | mkdirAuthService | create | bootstrap t => simp [step, hs]

theorem callStep_reads (s : State) (k : ℕ) (stored : Text) (hpc : s.pc ≠ .script) :
    (callStep k stored s).reads = s.reads := by
  unfold callStep
  split <;> try rfl
  · split <;> rfl
  · exact (handleEvent_handled _ _ s).reads
  · next h => exact absurd h hpc

theorem callStep_script {c : Text} (hs : s.fs.tree = .file c) (hpc : s.pc = .script) (k : ℕ) (stored : Text) :
    (callStep k stored s).reads = s.reads ++ [some (getlines c).flatten] := by
  simp [callStep, hpc, get_PartnerId_From_Script, hs]

theorem Due.after {c : Text} {n : ℕ} (hd : Due c n s) (h : Inv s) {a : Action} (ha : Leaves a) : Due c n (step s a) := by
  obtain ⟨htree, hn, hdue⟩ := hd
  refine ⟨ha.tree htree, ?_⟩
  by_cases hcall : ∃ k stored, a = .call k stored
  · obtain ⟨k, stored, rfl⟩ := hcall
    show n ≤ (callStep k stored s).reads.length ∧ (WillRead (callStep k stored s) ∨
      n < (callStep k stored s).reads.length ∧ (callStep k stored s).reads.getLast? = some (some (getlines c).flatten))
    by_cases hpc : s.pc = .script
    · rw [callStep_script htree hpc, List.length_append, List.length_singleton, List.getLast?_concat]
      exact ⟨by omega, Or.inr ⟨by omega, rfl⟩⟩
    · rw [callStep_reads s k stored hpc]
      exact ⟨hn, hdue.imp_left fun hr => (h.willRead_call hr k stored).resolve_left hpc⟩
  · have hout := outside_step s fun k stored he => hcall ⟨k, stored, he⟩
    rw [hout.reads]
    exact ⟨hn, hdue.imp_left hout.willRead⟩

theorem Silent.after (hs : Silent s) (h : Inv s) {a : Action} (ha : a ≠ .close) :
    Silent (step s a) ∧ (step s a).reads = s.reads := by
  by_cases hcall : ∃ k stored, a = .call k stored
  · obtain ⟨k, stored, rfl⟩ := hcall
    exact hs.call h k stored
  · exact hs.outside (fun k stored he => hcall ⟨k, stored, he⟩) ha

end

theorem Quiet.not_willRead {s : State} (hq : Quiet s) : ¬WillRead s := by
  rintro (h | ⟨e, he, -⟩)
  · rw [hq.1] at h
    cases h
  · simp [State.pending, hq.1, hq.2, Pc.rest] at he

/-- **After the last close the file is read if and only if the thread heard that close**, and what is read is
what the file holds. -/
theorem lastClose_read (fs : Fs) (l₁ l₂ : List Action) (c : Text)
    (hfile : (run step (boot fs) l₁).fs.tree = .file c) (h₂ : ∀ a ∈ l₂, Leaves a)
    (hq : Quiet (run step (boot fs) (l₁ ++ .close :: l₂))) :
    (Hearing (run step (boot fs) l₁) →
        (run step (boot fs) l₁).reads.length < (run step (boot fs) (l₁ ++ .close :: l₂)).reads.length ∧
          (run step (boot fs) (l₁ ++ .close :: l₂)).reads.getLast? = some (some (getlines c).flatten)) ∧
      (¬Hearing (run step (boot fs) l₁) →
        (run step (boot fs) (l₁ ++ .close :: l₂)).reads = (run step (boot fs) l₁).reads) := by
  rw [run_append, run_cons] at hq ⊢
  have hinv := inv_run fs l₁
  generalize run step (boot fs) l₁ = s at hfile hq hinv ⊢
  have hout : Outside s (step s .close) := outside_step s fun _ _ h => by cases h
  constructor
  · intro hh
    have hdue : Due c s.reads.length (step s .close) := by
      refine ⟨?_, by rw [hout.reads], Or.inl (hinv.willRead_close hh hfile)⟩
      simp [step, hfile, notify_tree]
    obtain ⟨-, -, -, hread⟩ := run_invariant_of (I := fun t => Inv t ∧ Due c s.reads.length t)
      (fun t a ht ha => ⟨ht.1.after a, ht.2.after ht.1 ha⟩) ⟨hinv.after .close, hdue⟩ h₂
    exact hread.resolve_left hq.not_willRead
  · intro hh
    have hsilent := hinv.silent_close hh (by rw [hfile]; rfl)
    have := run_invariant_of (I := fun t => Inv t ∧ Silent t ∧ t.reads = s.reads)
      (fun t a ht ha => ⟨ht.1.after a, (ht.2.1.after ht.1 ha).1, (ht.2.1.after ht.1 ha).2.trans ht.2.2⟩)
      ⟨hinv.after .close, hsilent, hout.reads⟩ fun a ha => (h₂ a ha).1
    exact this.2.2

/-- The thread reaches its loop, the directories are made one after the other and each is noticed in time. -/
def comesUp : List Action :=
  List.replicate 3 (.call 0 []) ++ .mkdirWww :: List.replicate 5 (.call 0 []) ++
    .mkdirAuthService :: List.replicate 4 (.call 0 []) ++ [.create]

/-- The thread handles what is there. -/
def calls : List Action := List.replicate 8 (.call 0 [])

theorem leaves_calls : ∀ a ∈ calls, Leaves a := by
  intro a ha
  rw [List.eq_of_mem_replicate ha]
  exact ⟨nofun, fun _ => nofun⟩

theorem comesUp_read :
    (run step (boot fresh) (comesUp ++ [.write ['a']] ++ .close :: calls)).reads.getLast? = some (some ['a']) := by
  have h := lastClose_read fresh (comesUp ++ [.write ['a']]) calls ['a'] (by decide) leaves_calls (by decide)
  exact (h.1 (by decide)).2

/-! ## The files for `parodus` -/

/-- The script has returned a partner id. -/
def IdRead (s : State) : Prop := ∃ id, some id ∈ s.reads ∧ id ≠ []

/-- `BSP_COMPLETE` is there when it was there at first, when the file was found at the start, or when a partner
id has been read. -/
def ParodusTold (atFirst : Bool) (s : State) : Prop :=
  s.fs.bspComplete = true ↔ atFirst = true ∨ .file ∈ s.watches ∨ IdRead s

theorem ParodusTold.congr {b : Bool} {s t : State} (h : ParodusTold b s) (hfs : t.fs.bspComplete = s.fs.bspComplete)
    (hw : t.watches = s.watches) (hr : t.reads = s.reads) : ParodusTold b t := by
  unfold ParodusTold IdRead at h ⊢
  rw [hfs, hw, hr]
  exact h

theorem Handled.bspComplete {s t : State} {e : Event} {rest : List Event} (ht : Handled e rest s t) :
    t.fs.bspComplete = s.fs.bspComplete := by
  cases ht <;> rfl

theorem idRead_append (s : State) (ret : Option Text) :
    (∃ id, some id ∈ s.reads ++ [ret] ∧ id ≠ []) ↔ IdRead s ∨ ∃ id, ret = some id ∧ id ≠ [] := by
  simp only [IdRead, List.mem_append, List.mem_singleton, or_and_right, exists_or, eq_comm (a := some _)]

theorem ParodusTold.call {b : Bool} {s : State} (h : ParodusTold b s) (k : ℕ) (stored : Text) :
    ParodusTold b (callStep k stored s) := by
  cases hpc : s.pc with
  | watchOpt =>
      unfold ParodusTold IdRead at h ⊢
      simpa [callStep, hpc] using h
  | statWww | statAuthService | statFile | statAgain _ =>
      simp only [callStep, hpc]
      exact h.congr rfl rfl rfl
  | watch w rest =>
      unfold ParodusTold IdRead at h ⊢
      by_cases hw : w = .file
      · simp [callStep, hpc, hw]
      · simpa [callStep, hpc, hw, Ne.symm hw] using h
  | wait =>
      simp only [callStep, hpc]
      split
      · exact h
      · exact h.congr rfl rfl rfl
  | handle batch =>
      cases batch with
      | nil =>
          simp only [callStep, hpc]
          exact h.congr rfl rfl rfl
      | cons e rest =>
          have ht := handleEvent_handled e rest s
          simp only [callStep, hpc]
          exact h.congr ht.bspComplete ht.watches ht.reads
  | script =>
      unfold ParodusTold at h ⊢
      simp only [callStep, hpc, IdRead]
      rw [idRead_append]
      rcases get_PartnerId_From_Script s.fs with _ | _ | ⟨c, id⟩
      · simpa [notifyParodus] using h
      · simpa [notifyParodus] using h
      · simp [notifyParodus]

theorem ParodusTold.notify {b : Bool} {s : State} (h : ParodusTold b s) (e : Event) : ParodusTold b (notify e s) := by
  unfold AuthService.notify
  split
  · exact h.congr rfl rfl rfl
  · exact h

theorem bspComplete_iff (fs : Fs) (l : List Action) : ParodusTold fs.bspComplete (run step (boot fs) l) := by
  refine run_invariant (fun s a h => ?_) ?_ l
  · cases a with
    | call k stored => exact h.call k stored
    | foreign e =>
        simp only [step]
        split
        · exact h.notify e
        · exact h
    | bootstrap t => exact h.congr rfl rfl rfl
    | close =>
        simp only [step]
        split
        · exact (h.notify _).notify _
        · exact h
    | write t =>
        simp only [step]
        split
        · exact h.congr rfl rfl rfl
        · exact h
    | mkdirWww | mkdirAuthService | create =>
        simp only [step]
        split
        · refine ParodusTold.notify ?_ _
          exact h.congr rfl rfl rfl
        · exact h
  · simp [ParodusTold, boot, IdRead]

/-! ## The thread comes to rest -/

/-- A bound on the calls up to the next one that blocks. -/
def work (s : State) : ℕ :=
  6 * s.queue.length + 4 * s.pc.rest.length +
    match s.pc with
    | .watchOpt => 7
    | .statWww => 6
    | .statAuthService => 5
    | .statFile | .statAgain _ => 3
    | .watch _ _ => 2
    | .handle _ | .script => 1
    | .wait => 0

theorem quiet_iff_work (s : State) : Quiet s ↔ work s = 0 := by
  have hq : 6 * s.queue.length = 0 ↔ s.queue = [] := by
    rw [← List.length_eq_zero_iff]
    omega
  unfold Quiet work
  cases s.pc <;> simp [Pc.rest, hq]

theorem Handled.work {s t : State} {e : Event} {rest : List Event} (hpc : s.pc = .handle (e :: rest))
    (ht : Handled e rest s t) : AuthService.work t < AuthService.work s := by
  cases ht <;> simp only [AuthService.work, hpc, Pc.rest, List.length_cons, List.length_nil] <;> omega

theorem work_call (s : State) (k : ℕ) (stored : Text) : work (callStep k stored s) ≤ work s - 1 := by
  cases hpc : s.pc with
  | watchOpt | statWww | statFile | watch _ _ | statAgain _ | script =>
      simp only [work, callStep, hpc, Pc.rest, List.length_nil]
      omega
  | statAuthService =>
      cases hw : s.foundWWW <;> cases ha : s.fs.tree.hasAuthService <;> simp [work, callStep, hpc, hw, ha, Pc.rest]
  | wait =>
      simp only [callStep, hpc]
      split
      · next hq => simp [work, hpc, hq, Pc.rest]
      · next hq =>
        have := List.length_pos_iff.mpr hq
        simp only [work, hpc, Pc.rest, List.length_take, List.length_drop, List.length_nil]
        omega
  | handle batch =>
      cases batch with
      | nil => simp [work, callStep, hpc, Pc.rest]
      | cons e rest =>
          have := (handleEvent_handled e rest s).work hpc
          simp only [callStep, hpc]
          omega

/-- Left alone, the thread comes to rest. -/
theorem quiet_of_calls {s : State} {l : List Action} (hl : ∀ a ∈ l, ∃ k stored, a = .call k stored)
    (hn : work s ≤ l.length) : Quiet (run step s l) := by
  induction l generalizing s with
  | nil => exact (quiet_iff_work s).mpr (by simpa using hn)
  | cons a l ih =>
      obtain ⟨k, stored, rfl⟩ := hl a List.mem_cons_self
      have := work_call s k stored
      refine ih (fun b hb => hl b (List.mem_cons_of_mem _ hb)) ?_
      show work (callStep k stored s) ≤ _
      rw [List.length_cons] at hn
      omega

end Tr69HostIf.BS.AuthService
