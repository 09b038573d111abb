import Tr69HostIf.DeviceInfo.ReverseSsh

/-!
# Runs of the reverse SSH requests

One spec lemma for each way through `set_xOpsReverseSshArgs`, then `sound_iff_admissible` : in a state in which only accepted
calls have been made a step is sound exactly when it is admissible. `runs_sound_iff` follows by the rule for runs.
-/

namespace Tr69HostIf.DeviceInfo
open Store Clib

/-! ## Characters -/

theorem clean_nil : Clean [] := fun _ h => by cases h

theorem clean_append {t u : Text} : Clean (t ++ u) ↔ Clean t ∧ Clean u := List.forall_mem_append

theorem allowed_of_addressChar {c : Char} (h : addressChar c = true) : allowed c = true := by
  simp only [addressChar, Bool.or_eq_true, decide_eq_true_eq] at h
  simp only [allowed, Bool.or_eq_true, decide_eq_true_eq]
  tauto

theorem clean_printNat (n : Nat) : Clean (printNat n) := by
  intro c hc
  have hd := (digits_printNat n).2 c hc
  simp [allowed, Char.isAlphanum, hd]

theorem clean_host (c : ArgsCall) : Clean c.host := by
  have haddr : Clean c.estbip.chars := fun x hx => allowed_of_addressChar (c.estbip.address x hx)
  unfold ArgsCall.host
  split
  · rw [List.cons_append]
    intro x hx
    rcases List.mem_cons.mp hx with rfl | hx
    · decide
    · rcases List.mem_append.mp hx with hx | hx
      · exact haddr x hx
      · rw [List.mem_singleton.mp hx]
        decide
  · exact haddr

theorem clean_reverse_iff (c : ArgsCall) :
    Clean c.reverse ↔ Clean (c.get "idletimeout") ∧ Clean (c.get "revsshport") ∧ Clean (c.get "user") := by
  have h1 : Clean " -I ".toList := by decide +kernel
  have h2 : Clean " -f -N -y -T -R ".toList := by decide +kernel
  have h3 : Clean ":".toList := by decide +kernel
  have h4 : Clean ":22 ".toList := by decide +kernel
  have h5 : Clean "@".toList := by decide +kernel
  unfold ArgsCall.reverse
  rw [clean_append, clean_append, clean_append, clean_append, clean_append, clean_append, clean_append, clean_append]
  constructor
  · rintro ⟨⟨⟨⟨⟨⟨⟨⟨-, hi⟩, -⟩, hr⟩, -⟩, -⟩, -⟩, hu⟩, -⟩
    exact ⟨hi, hr, hu⟩
  · rintro ⟨hi, hr, hu⟩
    exact ⟨⟨⟨⟨⟨⟨⟨⟨h1, hi⟩, h2⟩, hr⟩, h3⟩, clean_host c⟩, h4⟩, hu⟩, h5⟩

theorem reverse_ne_nil (c : ArgsCall) : c.reverse ≠ [] := by
  unfold ArgsCall.reverse
  simp

theorem nonShorts_ne_nil (c : ArgsCall) (key : String) : c.nonShorts key ≠ [] := by
  unfold ArgsCall.nonShorts
  simp

/-! ## The ways through `set_xOpsReverseSshArgs` -/

section
variable {c : ArgsCall} (v : Vars)

theorem setArgs_plain (hs : c.at? "stunnelport" = none) :
    setXOpsReverseSshArgs c v =
      checkArgs { v with reverseSSHArgs := c.reverse, nonShortsArgs := c.nonShorts "host" } := by
  rw [setXOpsReverseSshArgs, hs]

/-- The variables a call with `stunnelport` leaves, when no key is missing. -/
def stunnelVars (c : ArgsCall) (port : Nat) (host hostIp stunnelport : Text) : Vars where
  reverseSSHArgs := c.reverse
  shortsArgs := "localhost -p ".toList ++ printNat port
  nonShortsArgs := c.nonShorts "hostIp"
  stunnelSSHArgs := (((v.stunnelSSHArgs.insert "localport".toList (printNat port)).insert "host".toList host).insert
    "hostIp".toList hostIp).insert "stunnelport".toList stunnelport

theorem setArgs_stunnel {port : Nat} {host hostIp stunnelport : Text} (hs : c.at? "stunnelport" = some stunnelport)
    (hp : c.port = some port) (hh : c.at? "host" = some host) (hi : c.at? "hostIp" = some hostIp) :
    setXOpsReverseSshArgs c v = checkArgs (stunnelVars v c port host hostIp stunnelport) := by
  rw [setXOpsReverseSshArgs, hs, hp, hh, hi]
  rfl

theorem startShorts_stunnelVars (port : Nat) (host hostIp stunnelport : Text) :
    startShorts (stunnelVars v c port host hostIp stunnelport) =
      .executed (.startStunnel (printNat port) host hostIp stunnelport c.reverse
        ("localhost -p ".toList ++ printNat port) (c.nonShorts "hostIp")) := by
  have h1 : "localport".toList ≠ "host".toList := by decide
  have h2 : "localport".toList ≠ "hostIp".toList := by decide
  have h3 : "localport".toList ≠ "stunnelport".toList := by decide
  have h4 : "host".toList ≠ "hostIp".toList := by decide
  have h5 : "host".toList ≠ "stunnelport".toList := by decide
  have h6 : "hostIp".toList ≠ "stunnelport".toList := by decide
  unfold startShorts stunnelVars
  rw [Finmap.lookup_insert_of_ne _ h3, Finmap.lookup_insert_of_ne _ h2, Finmap.lookup_insert_of_ne _ h1,
    Finmap.lookup_insert, Finmap.lookup_insert_of_ne _ h5, Finmap.lookup_insert_of_ne _ h4, Finmap.lookup_insert,
    Finmap.lookup_insert_of_ne _ h6, Finmap.lookup_insert, Finmap.lookup_insert]

theorem checkArgs_of_clean {v : Vars} (h : Clean v.reverseSSHArgs) : checkArgs v = (true, v) := if_pos h

theorem checkArgs_of_not_clean {v : Vars} (h : ¬ Clean v.reverseSSHArgs) :
    checkArgs v = (false, { v with reverseSSHArgs := [] }) := if_neg h

end

/-- A call that gives all that the `stunnelport` branch asks for. -/
theorem ArgsCall.Accepted.keys {c : ArgsCall} (h : c.Accepted) (hs : c.Stunnel) :
    ∃ port host hostIp stunnelport, c.port = some port ∧ c.at? "host" = some host ∧
      c.at? "hostIp" = some hostIp ∧ c.at? "stunnelport" = some stunnelport := by
  obtain ⟨hp, hh, hi⟩ := h.2 hs
  obtain ⟨port, hp⟩ := Option.isSome_iff_exists.mp hp
  obtain ⟨host, hh⟩ := Option.isSome_iff_exists.mp hh
  obtain ⟨hostIp, hi⟩ := Option.isSome_iff_exists.mp hi
  obtain ⟨stunnelport, hs⟩ := Option.isSome_iff_exists.mp hs
  exact ⟨port, host, hostIp, stunnelport, hp, hh, hi, hs⟩

theorem ArgsCall.at?_of_not_stunnel {c : ArgsCall} (h : ¬ c.Stunnel) : c.at? "stunnelport" = none :=
  Option.not_isSome_iff_eq_none.mp h

/-- **An accepted call** returns `OK`, sets `reverseSSHArgs` and, with `stunnelport`, everything the `start shorts`
branch reads. -/
theorem setArgs_accepted {c : ArgsCall} (h : c.Accepted) (v : Vars) :
    (setXOpsReverseSshArgs c v).1 = true ∧ (setXOpsReverseSshArgs c v).2.reverseSSHArgs = c.reverse := by
  have hclean := (clean_reverse_iff c).mpr h.1
  by_cases hs : c.Stunnel
  · obtain ⟨port, host, hostIp, stunnelport, hp, hh, hi, hst⟩ := h.keys hs
    rw [setArgs_stunnel v hst hp hh hi, checkArgs_of_clean hclean]
    exact ⟨rfl, rfl⟩
  · rw [setArgs_plain v (ArgsCall.at?_of_not_stunnel hs), checkArgs_of_clean hclean]
    exact ⟨rfl, rfl⟩

/-- **A call that is not accepted** returns `NOK` and leaves a text in variables that were empty. -/
theorem setArgs_not_accepted {c : ArgsCall} (h : ¬ c.Accepted) (v : Vars) :
    (setXOpsReverseSshArgs c v).1 = false ∧ ¬ KeptOrEmpty .empty (setXOpsReverseSshArgs c .empty).2 := by
  have hnon : ∀ (w : Vars) (key : String), w.nonShortsArgs = c.nonShorts key → ¬ KeptOrEmpty .empty w :=
    fun w key hw hk => nonShorts_ne_nil c key (hw.symm.trans (hk.nonShorts.elim id id))
  have hshorts : ∀ (w : Vars) (port : Nat), w.shortsArgs = "localhost -p ".toList ++ printNat port →
      ¬ KeptOrEmpty .empty w := fun w port hw hk => by
    have hnil := hw.symm.trans (hk.shorts.elim id id)
    simp at hnil
  by_cases hs : c.Stunnel
  · obtain ⟨stunnelport, hst⟩ := Option.isSome_iff_exists.mp hs
    cases hp : c.port with
    | none =>
        refine ⟨by rw [setXOpsReverseSshArgs, hst, hp], fun hk => ?_⟩
        rw [setXOpsReverseSshArgs, hst, hp] at hk
        exact reverse_ne_nil c (hk.reverse.elim id id)
    | some port =>
        cases hh : c.at? "host" with
        | none =>
            refine ⟨by rw [setXOpsReverseSshArgs, hst, hp, hh], hshorts _ port ?_⟩
            rw [setXOpsReverseSshArgs, hst, hp, hh]
            simp only [Vars.touchStunnel]
            split <;> rfl
        | some host =>
            cases hi : c.at? "hostIp" with
            | none =>
                refine ⟨by rw [setXOpsReverseSshArgs, hst, hp, hh, hi], hshorts _ port ?_⟩
                rw [setXOpsReverseSshArgs, hst, hp, hh, hi]
                simp only [Vars.touchStunnel]
                split <;> rfl
            | some hostIp =>
                have hnot : ¬ Clean c.reverse := fun hc => h ⟨(clean_reverse_iff c).mp hc, fun _ => by
                  simp [hp, hh, hi]⟩
                refine ⟨?_, hnon _ "hostIp" ?_⟩
                · rw [setArgs_stunnel v hst hp hh hi, checkArgs_of_not_clean hnot]
                · rw [setArgs_stunnel _ hst hp hh hi, checkArgs_of_not_clean hnot]
                  rfl
  · have hnot : ¬ Clean c.reverse := fun hc => h ⟨(clean_reverse_iff c).mp hc, fun hs' => absurd hs' hs⟩
    have hst := ArgsCall.at?_of_not_stunnel hs
    refine ⟨?_, hnon _ "host" ?_⟩
    · rw [setArgs_plain v hst, checkArgs_of_not_clean hnot]
    · rw [setArgs_plain _ hst, checkArgs_of_not_clean hnot]

/-! ## The invariant -/

/-- A run of accepted calls: `reverseSSHArgs` is that of the most recent one and, when it gave `stunnelport`, so is all
that the `start shorts` branch reads. -/
structure Agrees (s : SshState) : Prop where
  accepted : ∀ c, s.last = some c → c.Accepted
  reverse : s.vars.reverseSSHArgs = s.current.reverseSSHArgs
  shorts : ∀ c, s.last = some c → c.Stunnel → startShorts s.vars = startShorts s.current

theorem agrees_initial : Agrees .initial where
  accepted c h := by cases h
  reverse := rfl
  shorts c h := by cases h

/-- What the `start shorts` branch does after an accepted call with `stunnelport`. -/
theorem startShorts_accepted {c : ArgsCall} (h : c.Accepted) (hs : c.Stunnel) (v : Vars) :
    ∃ port, startShorts (setXOpsReverseSshArgs c v).2 =
      .executed (.startStunnel (printNat port) (c.get "host") (c.get "hostIp") (c.get "stunnelport") c.reverse
        ("localhost -p ".toList ++ printNat port) (c.nonShorts "hostIp")) ∧ c.port = some port := by
  obtain ⟨port, host, hostIp, stunnelport, hp, hh, hi, hst⟩ := h.keys hs
  refine ⟨port, ?_, hp⟩
  have hclean : Clean (stunnelVars v c port host hostIp stunnelport).reverseSSHArgs := (clean_reverse_iff c).mpr h.1
  rw [setArgs_stunnel v hst hp hh hi, checkArgs_of_clean hclean, startShorts_stunnelVars, ArgsCall.get, hh,
    ArgsCall.get, hi, ArgsCall.get, hst]
  rfl

/-- **An admissible step keeps the invariant.** -/
theorem Agrees.step {s : SshState} (h : Agrees s) (i : SshStep) (hi : Admissible s i) : Agrees (sshStep s i) := by
  cases i with
  | trigger t => exact h
  | setArgs c =>
      have hc : c.Accepted := hi
      have hstate : sshStep s (.setArgs c) = ⟨(setXOpsReverseSshArgs c s.vars).2, some c⟩ := by
        rw [sshStep, (setArgs_accepted hc s.vars).1]
        rfl
      rw [hstate]
      refine ⟨fun c' h' => Option.some.inj h' ▸ hc, ?_, fun c' h' hs => ?_⟩
      · exact (setArgs_accepted hc s.vars).2.trans (setArgs_accepted hc .empty).2.symm
      · obtain rfl := Option.some.inj h'
        obtain ⟨port, hv, hp⟩ := startShorts_accepted hc hs s.vars
        obtain ⟨port', hv', hp'⟩ := startShorts_accepted hc hs .empty
        obtain rfl := Option.some.inj (hp.symm.trans hp')
        exact hv.trans hv'.symm

theorem Agrees.clean {s : SshState} (h : Agrees s) : Clean s.vars.reverseSSHArgs := by
  rw [h.reverse, SshState.current]
  cases hl : s.last with
  | none => exact clean_nil
  | some c =>
      have hc := h.accepted c hl
      rw [(setArgs_accepted hc .empty).2]
      exact (clean_reverse_iff c).mpr hc.1

/-- Without a call that gave `stunnelport` the `start shorts` branch finds no key. -/
theorem startShorts_current {s : SshState} (h : ∀ c, s.last = some c → ¬ c.Stunnel) :
    startShorts s.current = .missingKey := by
  rw [SshState.current]
  cases hl : s.last with
  | none => rfl
  | some c =>
      have hst := ArgsCall.at?_of_not_stunnel (h c hl)
      show startShorts (setXOpsReverseSshArgs c .empty).2 = .missingKey
      rw [setArgs_plain _ hst, checkArgs]
      split <;> rfl

/-! ## Sound steps -/

/-- The outcome is one that `Sound` allows. -/
def SoundOutcome (o current : Outcome) : Prop :=
  match o with
  | .refused => True
  | .missingKey => False
  | .executed command => (∀ a ∈ command.args, Clean a) ∧ current = .executed command

theorem sound_trigger_iff (s : SshState) (t : TriggerCall) :
    Sound s (.trigger t) ↔
      SoundOutcome (setXOpsReverseSshTrigger t s.vars) (setXOpsReverseSshTrigger t s.current) := Iff.rfl

theorem trigger_of_shorts {t : TriggerCall} (h : t.Shorts) (v : Vars) :
    setXOpsReverseSshTrigger t v = startShorts v := by
  obtain ⟨hp, ha, hin⟩ := h
  have hstart : "start".toList <+: t.input.chars := List.IsPrefix.trans (by decide) hin
  rw [setXOpsReverseSshTrigger, if_neg hp, if_pos hstart, if_neg (by rw [ha]; decide), if_pos hin]

theorem soundOutcome_shorts {s : SshState} (h : Agrees s) :
    SoundOutcome (startShorts s.vars) (startShorts s.current) ↔
      ∃ c, s.last = some c ∧ c.Stunnel ∧ c.RestClean := by
  by_cases hl : ∃ c, s.last = some c ∧ c.Stunnel
  · obtain ⟨c, hc, hs⟩ := hl
    have hacc := h.accepted c hc
    obtain ⟨port, hrun, -⟩ := startShorts_accepted hacc hs .empty
    have hcur : s.current = (setXOpsReverseSshArgs c .empty).2 := by rw [SshState.current, hc]
    have hrev := (clean_reverse_iff c).mpr hacc.1
    have hport := clean_printNat port
    have hlocal : Clean ("localhost -p ".toList ++ printNat port) := clean_append.mpr ⟨by decide +kernel, hport⟩
    have hdash : Clean " -p ".toList := by decide +kernel
    have hnon : Clean (c.nonShorts "hostIp") ↔ Clean (c.get "hostIp") ∧ Clean (c.get "sshport") := by
      unfold ArgsCall.nonShorts
      rw [clean_append, clean_append]
      exact ⟨fun h => ⟨h.1.1, h.2⟩, fun h => ⟨⟨h.1, hdash⟩, h.2⟩⟩
    have hclean : SoundOutcome (startShorts s.vars) (startShorts s.current) ↔ c.RestClean := by
      rw [h.shorts c hc hs, hcur, hrun]
      simp only [SoundOutcome, Command.args, List.forall_mem_cons, List.not_mem_nil, hport, hrev, hlocal, hnon,
        ArgsCall.RestClean]
      tauto
    rw [hclean]
    constructor
    · exact fun hr => ⟨c, hc, hs, hr⟩
    · rintro ⟨c', hc', -, hr⟩
      obtain rfl := Option.some.inj (hc.symm.trans hc')
      exact hr
  · have hcur := startShorts_current (s := s) fun c hc hs => hl ⟨c, hc, hs⟩
    refine iff_of_false ?_ fun ⟨c, hc, hs, _⟩ => hl ⟨c, hc, hs⟩
    rw [hcur]
    intro ho
    unfold startShorts at ho
    split at ho
    · cases ho.2
    · exact ho

/-- **A step in a run of accepted calls is sound exactly when it is admissible.** -/
theorem sound_iff_admissible {s : SshState} (h : Agrees s) (i : SshStep) : Sound s i ↔ Admissible s i := by
  cases i with
  | setArgs c =>
      by_cases hc : c.Accepted
      · refine iff_of_true (fun hf => ?_) hc
        rw [(setArgs_accepted hc s.vars).1] at hf
        cases hf
      · obtain ⟨hf, hk⟩ := setArgs_not_accepted hc s.vars
        exact iff_of_false (fun hs => hk (hs hf .empty)) hc
  | trigger t =>
      by_cases hsh : t.Shorts
      · rw [sound_trigger_iff, trigger_of_shorts hsh, trigger_of_shorts hsh, soundOutcome_shorts h]
        exact ⟨fun hc _ => hc, fun hc => hc hsh⟩
      · refine iff_of_true ?_ fun hc => absurd hc hsh
        rw [sound_trigger_iff]
        unfold setXOpsReverseSshTrigger
        split
        · trivial
        · next hp =>
          split
          · split
            · trivial
            · next ha =>
              -- the shorts branch is excluded, a plain start reads `reverseSSHArgs` alone
              rw [if_neg fun hin => hsh ⟨hp, by simpa using ha, hin⟩, if_neg fun hin => hsh ⟨hp, by simpa using ha, hin⟩]
              unfold startPlain
              split
              · trivial
              · split
                · trivial
                · refine ⟨fun a ha => ?_, by rw [h.reverse]⟩
                  rw [List.mem_singleton.mp ha]
                  exact h.clean
          · exact ⟨fun a ha => absurd ha List.not_mem_nil, rfl⟩

/-- **Runs of the reverse SSH requests.** Along a run from the start every step is sound exactly when every step is
admissible: no call is refused, and `start shorts` follows a call with `stunnelport` all of whose texts pass the
check. -/
theorem runs_sound_iff (l : List SshStep) :
    Along sshStep Sound .initial l ↔ Along sshStep Admissible .initial l :=
  Along.congr (I := Agrees) (fun _ i h hi => h.step i hi) (fun _ i h => sound_iff_admissible h i) agrees_initial l

/-- A call that is accepted with a command substitution in `hostIp`. -/
def substitutionCall : ArgsCall where
  input := .ofLiteral "idletimeout=9;revsshport=8;user=u;host=h;hostIp=$(reboot);sshport=22;stunnelport=443"
  estbip := ⟨"10.0.0.1".toList, List.all_eq_true.mp (by decide +kernel)⟩
  ipv6 := false
  port := some 3000
  leftFirst := true

def shortsTrigger : TriggerCall := ⟨.ofLiteral "start shorts", none, false, none⟩

/-- The text of the accepted call reaches the command line. -/
theorem substitution_executed :
    ¬ Along sshStep Sound .initial [.setArgs substitutionCall, .trigger shortsTrigger] := by
  intro h
  have htrigger : Sound (sshStep .initial (.setArgs substitutionCall)) (.trigger shortsTrigger) := h.2.1
  have hrun : setXOpsReverseSshTrigger shortsTrigger (sshStep .initial (.setArgs substitutionCall)).vars =
      .executed (.startStunnel "3000".toList "h".toList "$(reboot)".toList "443".toList
        " -I 9 -f -N -y -T -R 8:10.0.0.1:22 u@".toList "localhost -p 3000".toList "$(reboot) -p 22".toList) := by
    decide +kernel
  rw [sound_trigger_iff, hrun] at htrigger
  exact absurd (htrigger.1 "$(reboot)".toList (by decide +kernel)) (by decide +kernel)

end Tr69HostIf.DeviceInfo
