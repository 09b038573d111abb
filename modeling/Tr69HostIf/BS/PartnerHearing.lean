import Tr69HostIf.BS.PartnerWatch

/-!
# When the thread hears the partner id file

`hearing_iff_no_gap` : a thread in its loop hears the file if and only if the file was not made in a gap,
after the last check of it and before the watch on its directory. `Handled` says what one event does,
`Outside` what the others can do, `Inv` what holds in every state; `Listening` is kept by every call but the
one that makes the file in a gap, and is lost for good there.
-/

namespace Tr69HostIf.BS.AuthService
open Store

/-! ## What one event does -/

/-- The event makes the thread read the file. -/
def Trigger (s : State) (e : Event) : Prop :=
  s.foundAuthService = true ∧
    (s.partnerIdWatchAdded = false ∧ e = fileMade ∨ s.partnerIdWatchAdded = true ∧ e.mask = .closeWrite)

/-- What `handleEvent` can do. -/
inductive Handled (e : Event) (rest : List Event) (s : State) : State → Prop
  | skip (h : ¬Trigger s e) : Handled e rest s { s with pc := .handle rest }
  | www (h : s.foundWWW = false) (ht : ¬Trigger s e) :
      Handled e rest s { s with foundWWW := true, pc := .statAgain rest }
  | authService (hw : s.foundWWW = true) (h : s.foundAuthService = false) :
      Handled e rest s { s with foundAuthService := true, pc := .watch .authService rest }
  | made (h : s.foundAuthService = true) (ha : s.partnerIdWatchAdded = false) (hm : e.mask ≠ .closeWrite)
      (hn : e.name = targetFile) : Handled e rest s { s with partnerIdWatchAdded := true, pc := .script }
  | closed (h : s.foundAuthService = true) (ha : s.partnerIdWatchAdded = true) (hm : e.mask = .closeWrite) :
      Handled e rest s { s with pc := .script }

theorem handleEvent_handled (e : Event) (rest : List Event) (s : State) : Handled e rest s (handleEvent e rest s) := by
  have hdir : e.mask = .create true → ¬Trigger s e := by
    rintro h ⟨-, ⟨-, rfl⟩ | ⟨-, hm⟩⟩
    · cases h
    · rw [h] at hm
      cases hm
  unfold handleEvent
  split
  · next h =>
    simp only [Bool.and_eq_true, Bool.not_eq_true', beq_iff_eq] at h
    split
    · exact .www h.1 (hdir h.2)
    · exact .skip (hdir h.2)
  · split
    · next h =>
      simp only [Bool.and_eq_true, Bool.not_eq_true', beq_iff_eq] at h
      split
      · exact .authService h.1.1 h.1.2
      · exact .skip (hdir h.2)
    · split
      · next h =>
        simp only [Bool.and_eq_true, Bool.not_eq_true', bne_iff_ne] at h
        split
        · next hn => exact .made h.1.1 h.1.2 h.2 hn
        · next hn =>
          refine .skip ?_
          rintro ⟨-, ⟨-, rfl⟩ | ⟨ha, -⟩⟩
          · exact hn rfl
          · rw [h.1.2] at ha
            cases ha
      · next hmade =>
        split
        · next h =>
          simp only [Bool.and_eq_true, beq_iff_eq] at h
          exact .closed h.1.1 h.1.2 h.2
        · next hclosed =>
          refine .skip ?_
          rintro ⟨hf, ⟨ha, rfl⟩ | ⟨ha, hm⟩⟩
          · exact hmade (by simp [hf, ha, fileMade])
          · exact hclosed (by simp [hf, ha, hm])

/-! ## The invariant -/

/-- The calls before the directory of the file, or the file, is watched. -/
def Pc.Looking : Pc → Prop
  | .watchOpt | .statWww | .statAuthService | .statFile | .watch _ _ | .statAgain _ => True
  | .wait | .handle _ | .script => False

/-- The events come from the watches. -/
structure Known (ws : List Watched) (l : List Event) : Prop where
  made : ∀ e ∈ l, e.name = targetFile → e.mask ≠ .closeWrite → e = fileMade ∧ .authService ∈ ws
  closed : ∀ e ∈ l, e.mask = .closeWrite → .authService ∈ ws ∨ .file ∈ ws

/-- What holds in every state of the thread. -/
structure Inv (s : State) : Prop where
  looking : s.pc.Looking → .authService ∉ s.watches ∧ .file ∉ s.watches ∧ s.partnerIdWatchAdded = false
  found : .authService ∈ s.watches ∨ .file ∈ s.watches → s.foundWWW = true ∧ s.foundAuthService = true
  next : s.pc = .statFile ∨ (∃ rest, s.pc = .watch .authService rest ∨ s.pc = .watch .file rest) →
    s.foundWWW = true ∧ s.foundAuthService = true
  again : ∀ rest, s.pc = .statAgain rest → s.foundWWW = true
  one : .authService ∈ s.watches → .file ∉ s.watches
  added : s.partnerIdWatchAdded = true → .authService ∈ s.watches ∨ .file ∈ s.watches
  file : .file ∈ s.watches → s.partnerIdWatchAdded = true
  script : s.pc = .script → s.partnerIdWatchAdded = true
  present : .file ∈ s.watches ∨ (∃ rest, s.pc = .watch .file rest) → s.fs.tree.hasFile = true
  known : Known s.watches s.pending

/-- What the others can do to the thread: they add events of its watches. -/
structure Outside (s t : State) : Prop where
  pc : t.pc = s.pc
  watches : t.watches = s.watches
  foundWWW : t.foundWWW = s.foundWWW
  foundAuthService : t.foundAuthService = s.foundAuthService
  added : t.partnerIdWatchAdded = s.partnerIdWatchAdded
  reads : t.reads = s.reads
  file : s.fs.tree.hasFile = true → t.fs.tree.hasFile = true
  kept : ∀ e ∈ s.queue, e ∈ t.queue
  made : ∀ e ∈ t.queue, e ∉ s.queue → e.name = targetFile → e.mask ≠ .closeWrite →
    e = fileMade ∧ .authService ∈ s.watches ∧ s.fs.tree = .authService
  closed : ∀ e ∈ t.queue, e ∉ s.queue → e.mask = .closeWrite → .authService ∈ s.watches ∨ .file ∈ s.watches

theorem Outside.refl (s : State) : Outside s s :=
  ⟨rfl, rfl, rfl, rfl, rfl, rfl, id, fun _ h => h, fun _ h h' => absurd h h', fun _ h h' => absurd h h'⟩

theorem outside_notify {e : Event} {s u : State} (hu : Outside s u)
    (hm : e.name = targetFile → e.mask ≠ .closeWrite → e = fileMade ∧ s.fs.tree = .authService)
    (hc : e.mask = .closeWrite → e.wd = .authService ∨ e.wd = .file) : Outside s (notify e u) := by
  unfold notify
  split
  · next hw =>
    rw [hu.watches] at hw
    refine ⟨hu.pc, hu.watches, hu.foundWWW, hu.foundAuthService, hu.added, hu.reads, hu.file,
      fun x hx => mem_post.mpr (Or.inl (hu.kept x hx)), fun x hx hold hname hmask => ?_, fun x hx hold hmask => ?_⟩
    · rcases mem_post.mp hx with hx | rfl
      · exact hu.made x hx hold hname hmask
      · obtain ⟨rfl, hnone⟩ := hm hname hmask
        exact ⟨rfl, hw, hnone⟩
    · rcases mem_post.mp hx with hx | rfl
      · exact hu.closed x hx hold hmask
      · rcases hc hmask with h | h
        · exact Or.inl (h ▸ hw)
        · exact Or.inr (h ▸ hw)
  · exact hu

theorem outside_fs {s : State} {fs : Fs} (h : s.fs.tree.hasFile = true → fs.tree.hasFile = true) :
    Outside s { s with fs := fs } :=
  ⟨rfl, rfl, rfl, rfl, rfl, rfl, h, fun _ h => h, fun _ h h' => absurd h h', fun _ h h' => absurd h h'⟩

/-- Every call but the thread's own is from outside. -/
theorem outside_step (s : State) {a : Action} (ha : ∀ k stored, a ≠ .call k stored) : Outside s (step s a) := by
  cases a with
  | call k stored => exact absurd rfl (ha k stored)
  | mkdirWww =>
      simp only [step]
      split
      · next ht => exact outside_notify (outside_fs (by simp [ht, Tree.hasFile])) (fun h => absurd h (by decide)) nofun
      · exact .refl s
  | mkdirAuthService =>
      simp only [step]
      split
      · next ht => exact outside_notify (outside_fs (by simp [ht, Tree.hasFile])) (fun h => absurd h (by decide)) nofun
      · exact .refl s
  | create =>
      simp only [step]
      split
      · next ht => exact outside_notify (outside_fs fun _ => rfl) (fun _ _ => ⟨rfl, ht⟩) nofun
      · exact .refl s
  | write t =>
      simp only [step]
      split
      · exact outside_fs fun _ => rfl
      · exact .refl s
  | close =>
      simp only [step]
      split
      · exact outside_notify (outside_notify (.refl s) (fun _ h => absurd rfl h) fun _ => Or.inl rfl)
          (fun _ h => absurd rfl h) fun _ => Or.inr rfl
      · exact .refl s
  | foreign e =>
      simp only [step]
      split
      · next h =>
        refine outside_notify (.refl s) (fun hname => ?_) fun hm => Or.inl (h.2.2 hm)
        exact absurd (by simp [hname]) h.1
      · exact .refl s
  | bootstrap t => exact outside_fs id

theorem Outside.pending {s t : State} (h : Outside s t) {e : Event} (he : e ∈ t.pending) :
    e ∈ s.pending ∨ e ∈ t.queue ∧ e ∉ s.queue := by
  by_cases hs : e ∈ s.queue
  · exact Or.inl (List.mem_append_right _ hs)
  · rcases List.mem_append.mp he with he | he
    · rw [h.pc] at he
      exact Or.inl (List.mem_append_left _ he)
    · exact Or.inr ⟨he, hs⟩

theorem Outside.pending_kept {s t : State} (h : Outside s t) {e : Event} (he : e ∈ s.pending) : e ∈ t.pending := by
  rcases List.mem_append.mp he with he | he
  · exact List.mem_append_left _ (h.pc ▸ he)
  · exact List.mem_append_right _ (h.kept e he)

theorem Inv.outside {s t : State} (h : Inv s) (ht : Outside s t) : Inv t := by
  refine ⟨?_, ?_, ?_, ?_, ?_, ?_, ?_, ?_, ?_, ?_⟩
  · simpa only [ht.pc, ht.watches, ht.added] using h.looking
  · simpa only [ht.watches, ht.foundWWW, ht.foundAuthService] using h.found
  · simpa only [ht.pc, ht.foundWWW, ht.foundAuthService] using h.next
  · simpa only [ht.pc, ht.foundWWW] using h.again
  · simpa only [ht.watches] using h.one
  · simpa only [ht.watches, ht.added] using h.added
  · simpa only [ht.watches, ht.added] using h.file
  · simpa only [ht.pc, ht.added] using h.script
  · rw [ht.watches, ht.pc]
    exact fun hf => ht.file (h.present hf)
  · rw [ht.watches]
    refine ⟨fun e he hn hm => ?_, fun e he hm => ?_⟩
    · rcases ht.pending he with he | ⟨he, hold⟩
      · exact h.known.made e he hn hm
      · exact (ht.made e he hold hn hm).imp id And.left
    · rcases ht.pending he with he | ⟨he, hold⟩
      · exact h.known.closed e he hm
      · exact ht.closed e he hold hm

theorem inv_boot (fs : Fs) : Inv (boot fs) := by
  refine ⟨?_, ?_, ?_, ?_, ?_, ?_, ?_, ?_, ?_, ?_, ?_⟩ <;> simp [boot, State.pending, Pc.rest]

/-! ## The calls of the thread -/

theorem Handled.pending {s t : State} {e x : Event} {rest : List Event} (ht : Handled e rest s t) (hx : x ∈ t.pending) :
    x ∈ rest ∨ x ∈ s.queue := by
  cases ht <;> simp_all [State.pending, Pc.rest]

theorem Handled.watches {s t : State} {e : Event} {rest : List Event} (ht : Handled e rest s t) :
    t.watches = s.watches := by
  cases ht <;> rfl

theorem Handled.tree {s t : State} {e : Event} {rest : List Event} (ht : Handled e rest s t) : t.fs.tree = s.fs.tree := by
  cases ht <;> rfl

theorem Handled.reads {s t : State} {e : Event} {rest : List Event} (ht : Handled e rest s t) : t.reads = s.reads := by
  cases ht <;> rfl

theorem Handled.not_checking {s t : State} {e : Event} {rest : List Event} (ht : Handled e rest s t) :
    ¬CheckToCome t ∧ ¬∃ rest, t.pc = .watch .file rest := by
  cases ht <;> simp [CheckToCome]

/-- No call of the thread makes events, and none takes a watch away. -/
theorem callStep_known (s : State) (k : ℕ) (stored : Text) (h : Known s.watches s.pending) :
    Known (callStep k stored s).watches (callStep k stored s).pending := by
  have hw : ∀ w ∈ s.watches, w ∈ (callStep k stored s).watches := by
    intro w hw
    unfold callStep
    split <;> try exact hw
    · exact List.mem_cons_of_mem _ hw
    · exact List.mem_cons_of_mem _ hw
    · split <;> exact hw
    · rw [(handleEvent_handled _ _ s).watches]
      exact hw
  have hp : ∀ x ∈ (callStep k stored s).pending, x ∈ s.pending := by
    intro x hx
    unfold callStep at hx
    unfold State.pending
    split at hx <;> rename_i hpc <;> rw [hpc]
    · simpa [State.pending, Pc.rest] using hx
    · simpa [State.pending, Pc.rest] using hx
    · simp only [State.pending] at hx
      split at hx
      · simpa [Pc.rest] using hx
      · split at hx <;> simpa [Pc.rest] using hx
    · simpa [State.pending, Pc.rest] using hx
    · simpa [State.pending, Pc.rest] using hx
    · split at hx
      · simpa [State.pending, Pc.rest, hpc] using hx
      · simpa [State.pending, Pc.rest] using hx
    · simpa [State.pending, Pc.rest] using hx
    · rcases (handleEvent_handled _ _ s).pending hx with hx | hx <;> simp [Pc.rest, hx]
    · simpa [State.pending, Pc.rest] using hx
    · simpa [State.pending, Pc.rest] using hx
  refine ⟨fun x hx hn hm => ?_, fun x hx hm => ?_⟩
  · exact (h.made x (hp x hx) hn hm).imp id (hw _)
  · exact (h.closed x (hp x hx) hm).imp (hw _) (hw _)

theorem Inv.unfound {s : State} (h : Inv s) (hf : ¬(s.foundWWW = true ∧ s.foundAuthService = true)) :
    .authService ∉ s.watches ∧ .file ∉ s.watches ∧ s.partnerIdWatchAdded = false := by
  have hw : ¬(Watched.authService ∈ s.watches ∨ Watched.file ∈ s.watches) := fun hw => hf (h.found hw)
  rw [not_or] at hw
  exact ⟨hw.1, hw.2, by simpa using fun ha => not_or.mpr hw (h.added ha)⟩

theorem Inv.handled {s t : State} {e : Event} {rest : List Event} (h : Inv s) (hpc : s.pc = .handle (e :: rest))
    (ht : Handled e rest s t) (hk : Known t.watches t.pending) : Inv t := by
  have hunfound := h.unfound
  obtain ⟨hlooking, hfound, hnext, hagain, hone, hadded, hfile, hscript, hpresent, hknown⟩ := h
  cases ht with
  | skip hskip => refine ⟨?_, ?_, ?_, ?_, ?_, ?_, ?_, ?_, ?_, hk⟩ <;> simp_all [Pc.Looking]
  | www hw htr =>
      have hu := hunfound (by simp [hw])
      refine ⟨?_, ?_, ?_, ?_, ?_, ?_, ?_, ?_, ?_, hk⟩ <;> simp_all
  | authService hw ha =>
      have hu := hunfound (by simp [ha])
      refine ⟨?_, ?_, ?_, ?_, ?_, ?_, ?_, ?_, ?_, hk⟩ <;> simp_all
  | made hf ha hm hn =>
      have hw := (hknown.made e (by simp [State.pending, hpc, Pc.rest]) hn hm).2
      refine ⟨?_, ?_, ?_, ?_, ?_, ?_, ?_, ?_, ?_, hk⟩ <;> simp_all [Pc.Looking]
  | closed hf ha hm => refine ⟨?_, ?_, ?_, ?_, ?_, ?_, ?_, ?_, ?_, hk⟩ <;> simp_all [Pc.Looking]

theorem Inv.call {s : State} (h : Inv s) (k : ℕ) (stored : Text) : Inv (callStep k stored s) := by
  have hk := callStep_known s k stored h.known
  have hhandled : ∀ e rest, s.pc = .handle (e :: rest) → Known (handleEvent e rest s).watches (handleEvent e rest s).pending →
      Inv (handleEvent e rest s) := fun e rest hpc => h.handled hpc (handleEvent_handled e rest s)
  have hs := h
  obtain ⟨hlooking, hfound, hnext, hagain, hone, hadded, hfile, hscript, hpresent, -⟩ := h
  cases hpc : s.pc with
  | handle batch =>
      cases batch with
      | nil =>
          simp only [callStep, hpc] at hk ⊢
          refine ⟨?_, ?_, ?_, ?_, ?_, ?_, ?_, ?_, ?_, hk⟩ <;> simp_all [Pc.Looking]
      | cons e rest =>
          simp only [callStep, hpc] at hk ⊢
          exact hhandled e rest hpc hk
  | wait =>
      simp only [callStep, hpc] at hk ⊢
      split at hk
      · next hq => simpa only [hq, if_true] using hs
      · next hq =>
        rw [if_neg hq]
        refine ⟨?_, ?_, ?_, ?_, ?_, ?_, ?_, ?_, ?_, hk⟩ <;> simp_all [Pc.Looking]
  | statAuthService =>
      simp only [callStep, hpc] at hk ⊢
      refine ⟨?_, ?_, ?_, ?_, ?_, ?_, ?_, ?_, ?_, hk⟩ <;>
        cases hw : s.foundWWW <;> cases ha : s.fs.tree.hasAuthService <;> simp_all [Pc.Looking]
  | watchOpt | statWww | statFile | script =>
      simp only [callStep, hpc] at hk ⊢
      refine ⟨?_, ?_, ?_, ?_, ?_, ?_, ?_, ?_, ?_, hk⟩ <;> simp_all [Pc.Looking]
  | watch w rest =>
      simp only [callStep, hpc] at hk ⊢
      refine ⟨?_, ?_, ?_, ?_, ?_, ?_, ?_, ?_, ?_, hk⟩ <;> cases w <;> simp_all [Pc.Looking]
  | statAgain rest =>
      simp only [callStep, hpc] at hk ⊢
      refine ⟨?_, ?_, ?_, ?_, ?_, ?_, ?_, ?_, ?_, hk⟩ <;> cases ha : s.fs.tree.hasAuthService <;> simp_all [Pc.Looking]

theorem Inv.after {s : State} (h : Inv s) (a : Action) : Inv (step s a) := by
  by_cases ha : ∃ k stored, a = .call k stored
  · obtain ⟨k, stored, rfl⟩ := ha
    exact h.call k stored
  · exact h.outside (outside_step s fun k stored he => ha ⟨k, stored, he⟩)

/-- In every run. -/
theorem inv_run (fs : Fs) (l : List Action) : Inv (run step (boot fs) l) :=
  run_invariant (fun _ a h => h.after a) (inv_boot fs) l

/-! ## Hearing the file -/

section
variable {s t : State}

theorem Inv.not_hearing (h : Inv s) (hl : s.pc.Looking) : ¬Hearing s := by
  obtain ⟨ha, hf, -⟩ := h.looking hl
  exact fun hh => hh.elim hf fun hh => ha hh.1

theorem CheckToCome.looking (h : CheckToCome s) : s.pc.Looking := by
  rcases h with h | h | ⟨h, -⟩ | h <;> rw [h] <;> trivial

theorem Inv.listening_handled {e : Event} {rest : List Event} (h : Inv s) (hpc : s.pc = .handle (e :: rest))
    (ht : Handled e rest s t) : Hearing t ↔ Hearing s := by
  have hmem : fileMade ∈ s.pending ↔ e = fileMade ∨ fileMade ∈ rest ++ s.queue := by
    simp [State.pending, hpc, Pc.rest, eq_comm]
  have hunfound : ¬(s.foundWWW = true ∧ s.foundAuthService = true) → ¬Hearing s := by
    intro hf hh
    obtain ⟨ha, hw, -⟩ := h.unfound hf
    exact hh.elim hw fun hh => ha hh.1
  cases ht with
  | skip hskip =>
      show (_ ∨ _ ∧ (_ ∨ fileMade ∈ rest ++ s.queue)) ↔ (_ ∨ _ ∧ (_ ∨ _))
      rw [hmem]
      constructor
      · rintro (hf | ⟨ha, hf | hf⟩)
        · exact Or.inl hf
        · exact Or.inr ⟨ha, Or.inl hf⟩
        · exact Or.inr ⟨ha, Or.inr (Or.inr hf)⟩
      · rintro (hf | ⟨ha, hf | rfl | hf⟩)
        · exact Or.inl hf
        · exact Or.inr ⟨ha, Or.inl hf⟩
        · refine Or.inr ⟨ha, Or.inl ?_⟩
          by_contra hadd
          exact hskip ⟨(h.found (Or.inl ha)).2, Or.inl ⟨by simpa using hadd, rfl⟩⟩
        · exact Or.inr ⟨ha, Or.inr hf⟩
  | www hw htr =>
      obtain ⟨ha, hf, -⟩ := h.unfound (by simp [hw])
      simp [Hearing, ha, hf]
  | authService hw hfound =>
      obtain ⟨ha, hf, -⟩ := h.unfound (by simp [hfound])
      simp [Hearing, ha, hf]
  | made hfound hadd hm hn =>
      obtain ⟨rfl, ha⟩ := h.known.made e (by simp [State.pending, hpc, Pc.rest]) hn hm
      simp [Hearing, ha, hmem]
  | closed hfound hadd hm => simp [Hearing, hadd]

theorem callStep_tree (s : State) (k : ℕ) (stored : Text) : (callStep k stored s).fs.tree = s.fs.tree := by
  unfold callStep
  split <;> try rfl
  · split <;> rfl
  · exact (handleEvent_handled _ _ s).tree
  · exact notifyParodus_tree stored _ s.fs

theorem hasFile_hasWWW {t : Tree} (h : t.hasFile = true) : t.hasWWW = true ∧ t.hasAuthService = true := by
  cases t <;> simp_all [Tree.hasFile, Tree.hasWWW, Tree.hasAuthService]

/-- No call of the thread changes what it hears, the checks to come counted in. -/
theorem Inv.listening_call (h : Inv s) (k : ℕ) (stored : Text) : Listening (callStep k stored s) ↔ Listening s := by
  unfold Listening
  rw [callStep_tree]
  refine imp_congr_right fun hfile => ?_
  obtain ⟨hwww, hauth⟩ := hasFile_hasWWW hfile
  have hlooking := h.not_hearing
  cases hpc : s.pc with
  | watchOpt | statWww | statFile => simp_all [callStep, CheckToCome]
  | statAuthService =>
      have hh := hlooking (by simp [hpc, Pc.Looking])
      cases hw : s.foundWWW <;> simp_all [callStep, CheckToCome, Hearing, State.pending, Pc.rest]
  | watch w rest =>
      have hh := hlooking (by simp [hpc, Pc.Looking])
      obtain ⟨ha, hf, hadd⟩ := h.looking (by simp [hpc, Pc.Looking])
      have hmade : fileMade ∉ s.pending := fun hm => ha (h.known.made _ hm rfl nofun).2
      have hmade' : fileMade ∉ rest ∧ fileMade ∉ s.queue := by simpa [State.pending, hpc, Pc.rest] using hmade
      cases w <;> simp [callStep, hpc, CheckToCome, hh] <;> simp [Hearing, ha, hf, hadd, State.pending, Pc.rest, hmade']
  | wait =>
      simp only [callStep, hpc]
      split
      · simp [CheckToCome, hpc]
      · simp [CheckToCome, Hearing, State.pending, hpc, Pc.rest]
  | handle batch =>
      cases batch with
      | nil => simp [callStep, hpc, CheckToCome, Hearing, State.pending, Pc.rest]
      | cons e rest =>
          have ht := handleEvent_handled e rest s
          simp only [callStep, hpc]
          rw [h.listening_handled hpc ht]
          obtain ⟨hcheck, hwatch⟩ := ht.not_checking
          simp only [hcheck, hwatch, false_or]
          simp [CheckToCome, hpc]
  | statAgain rest =>
      obtain ⟨ha, hf, -⟩ := h.looking (by simp [hpc, Pc.Looking])
      simp [callStep, hpc, CheckToCome, hauth, Hearing, ha, hf]
  | script => simp [callStep, hpc, CheckToCome, Hearing, State.pending, Pc.rest]

theorem Outside.attentive (h : Outside s t) :
    (CheckToCome t ↔ CheckToCome s) ∧ ((∃ rest, t.pc = .watch .file rest) ↔ ∃ rest, s.pc = .watch .file rest) := by
  unfold CheckToCome
  rw [h.pc, h.foundWWW]
  exact ⟨Iff.rfl, Iff.rfl⟩

/-- Once the file is there, nobody else changes what the thread hears. -/
theorem Outside.hearing_iff (h : Outside s t) (hfile : s.fs.tree.hasFile = true) : Hearing t ↔ Hearing s := by
  have hmade : fileMade ∈ t.pending ↔ fileMade ∈ s.pending := by
    refine ⟨fun hm => (h.pending hm).elim id fun hm => ?_, h.pending_kept⟩
    have htree := (h.made _ hm.1 hm.2 rfl nofun).2.2
    rw [htree] at hfile
    cases hfile
  unfold Hearing
  rw [h.watches, h.added, hmade]

theorem notify_tree (e : Event) (s : State) : (notify e s).fs.tree = s.fs.tree := by
  unfold notify
  split <;> rfl

/-- The others make the file in one way. -/
theorem made_file {a : Action} (ha : ∀ k stored, a ≠ .call k stored) (hs : s.fs.tree.hasFile = false)
    (ht : (step s a).fs.tree.hasFile = true) : a = .create ∧ s.fs.tree = .authService := by
  cases a with
  | call k stored => exact absurd rfl (ha k stored)
  | create =>
      cases htree : s.fs.tree <;> simp_all [step, Tree.hasFile]
  | mkdirWww | mkdirAuthService | write t | close =>
      cases htree : s.fs.tree <;> simp_all [step, notify_tree, Tree.hasFile]
  | foreign e =>
      simp only [step] at ht
      split at ht
      · rw [notify_tree] at ht
        simp_all
      · simp_all
  | bootstrap t => simp_all [step]

/-- The thread stays attentive when the file is made, but in a gap. -/
theorem Inv.listening_create (h : Inv s) (htree : s.fs.tree = .authService) :
    Listening (step s .create) ↔ ¬Gap s .create := by
  have ht : step s .create = notify fileMade { s with fs := { s.fs with tree := .file [] } } := by simp [step, htree]
  have hout : Outside s (step s .create) := outside_step s nofun
  have hno : ¬(Watched.file ∈ s.watches ∨ ∃ rest, s.pc = .watch .file rest) := fun hf => by
    have := h.present hf
    rw [htree] at this
    cases this
  rw [not_or] at hno
  have hfile : (step s .create).fs.tree.hasFile = true := by
    rw [ht, notify_tree]
    rfl
  unfold Listening Gap
  rw [hout.attentive.1, hout.attentive.2]
  simp only [hfile, forall_const, htree, hno.2, true_and, false_or, not_and, not_not]
  constructor
  · rintro (hc | hf | ⟨ha, -⟩) hwatch
    · exact hc
    · rw [hout.watches] at hf
      exact absurd hf hno.1
    · rw [hout.watches] at ha
      exact absurd ha hwatch
  · intro hc
    by_cases ha : .authService ∈ s.watches
    · refine Or.inr (Or.inr ⟨hout.watches ▸ ha, Or.inr ?_⟩)
      rw [ht]
      unfold notify
      rw [if_pos (show fileMade.wd ∈ _ from ha)]
      exact List.mem_append_right _ (mem_post.mpr (Or.inr rfl))
    · exact Or.inl (hc ha)

/-- The thread stays attentive until the file is made in a gap. -/
theorem Inv.listening_step (h : Inv s) (hl : Listening s) (a : Action) : Listening (step s a) ↔ ¬Gap s a := by
  by_cases ha : ∃ k stored, a = .call k stored
  · obtain ⟨k, stored, rfl⟩ := ha
    exact iff_of_true ((h.listening_call k stored).mpr hl) fun hg => by cases hg.1
  · have hcall : ∀ k stored, a ≠ .call k stored := fun k stored he => ha ⟨k, stored, he⟩
    have hout := outside_step s hcall
    cases hs : s.fs.tree.hasFile with
    | true =>
        refine iff_of_true (fun _ => ?_) ?_
        · rw [hout.attentive.1, hout.attentive.2, hout.hearing_iff hs]
          exact hl hs
        · rintro ⟨-, htree, -⟩
          rw [htree] at hs
          cases hs
    | false =>
        by_cases ht : (step s a).fs.tree.hasFile = true
        · obtain ⟨rfl, htree⟩ := made_file hcall hs ht
          exact h.listening_create htree
        · refine iff_of_true (fun hf => absurd hf ht) ?_
          rintro ⟨rfl, htree, -⟩
          refine ht ?_
          simp [step, htree, notify_tree, Tree.hasFile]

/-- A thread that has missed the file stays deaf. -/
theorem Inv.deaf_step (h : Inv s) (hl : ¬Listening s) (a : Action) : ¬Listening (step s a) := by
  by_cases ha : ∃ k stored, a = .call k stored
  · obtain ⟨k, stored, rfl⟩ := ha
    exact fun ht => hl ((h.listening_call k stored).mp ht)
  · have hout := outside_step s fun k stored he => ha ⟨k, stored, he⟩
    obtain ⟨hs, hdeaf⟩ : s.fs.tree.hasFile = true ∧ ¬(CheckToCome s ∨ (∃ rest, s.pc = .watch .file rest) ∨ Hearing s) := by
      simpa only [Listening, Classical.not_imp] using hl
    intro ht
    rw [Listening, hout.attentive.1, hout.attentive.2, hout.hearing_iff hs] at ht
    exact hdeaf (ht (hout.file hs))

end

/-- **A thread in its loop hears the file if and only if it was not made in a gap.** -/
theorem hearing_iff_no_gap (fs : Fs) (l : List Action) (hloop : ¬(run step (boot fs) l).pc.Starting)
    (hfile : (run step (boot fs) l).fs.tree.hasFile = true) :
    Hearing (run step (boot fs) l) ↔ Along step (fun s a => ¬Gap s a) (boot fs) l := by
  have hrun : Listening (run step (boot fs) l) ↔ Along step (fun s a => ¬Gap s a) (boot fs) l :=
    Along.iff_kept (fun _ a h => h.after a) (fun _ a h hl => h.listening_step hl a) (fun _ a h hl => h.deaf_step hl a)
      (inv_boot fs) (fun _ => Or.inl (Or.inl rfl)) l
  rw [← hrun, Listening]
  generalize run step (boot fs) l = s at hloop hfile
  have hcheck : ¬CheckToCome s := by
    rintro (h | h | ⟨h, -⟩ | h) <;> exact hloop (h ▸ trivial)
  have hwatch : ¬∃ rest, s.pc = .watch .file rest := fun ⟨rest, h⟩ => hloop (h ▸ trivial)
  simp [hfile, hcheck, hwatch]

/-- A file system without `/opt/www`. -/
def fresh : Fs := ⟨.opt, none, false, false⟩

/-- Both directories and the file are made before the thread has seen the first event. -/
def comesUpAtOnce : List Action :=
  List.replicate 3 (.call 0 []) ++ [.mkdirWww, .mkdirAuthService, .create] ++ List.replicate 5 (.call 0 [])

theorem comesUpAtOnce_gap : ¬Along step (fun s a => ¬Gap s a) (boot fresh) comesUpAtOnce :=
  fun h => absurd ((hearing_iff_no_gap fresh comesUpAtOnce (by decide) (by decide)).mpr h) (by decide)

end Tr69HostIf.BS.AuthService
