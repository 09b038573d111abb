import Tr69HostIf.Store.Select
import Tr69HostIf.Waldb.Splice

/-!
# The AppArmor blocklist

`set_xRDKCentralComApparmorBlocklist` of `Device_DeviceInfo.cpp` with `ValidateInput_Arguments`. The old file is read
in pieces of a buffer; the pieces whose process name does not occur in the input go to a temporary file, then the
tokens of the input once they have been checked, and the temporary file takes the place of the old one.

* `fgetsAll` : what a loop of `fgets` makes of a file; `fgetsAll_lines` : the pieces of its lines (`linePieces`);
* `Outcomes` : how the file operations end;
* `checkToken`, `validateInputArguments`, `setBlocklist` : the functions.
-/

namespace Tr69HostIf.DeviceInfo
open Store
open Waldb (strstr strstr_isSome)

/-- `ENTRY_WIDTH`. -/
def entryWidth : Nat := 64

/-- The size of `buf`. -/
def bufSize : Nat := 128

/-- The first token of `strtok_r`. -/
def strtok (delim : Char) (t : Text) : Option Text :=
  let token := (t.dropWhile fun c => c = delim).takeWhile fun c => c ≠ delim
  if token = [] then none else some token

/-- All tokens of `strtok_r`. -/
def strtokAll (delim : Char) (t : Text) : List Text := (t.splitOn delim).filter fun token => token ≠ []

/-- `fgets(buf, sizeof(buf), fptr)` up to the end of the file, then `buf[strcspn(buf,"\n")] = 0`; `buf` is what the
present piece has so far. -/
def fgetsLoop : Text → Text → List Text
  | buf, [] => if buf = [] then [] else [buf]
  | buf, c :: t =>
      if c = '\n' then buf :: fgetsLoop [] t
      else if buf.length + 2 = bufSize then (buf ++ [c]) :: fgetsLoop [] t
      else fgetsLoop (buf ++ [c]) t

/-- The pieces of a file. -/
def fgetsAll (t : Text) : List Text := fgetsLoop [] t

/-- The files of the two profile directories, as `readdir` names them. -/
structure Profiles where
  names : List Text
  services : List Text

/-- How the file operations end: whether the temporary file opens; how many pieces `fgets` delivers, none when the old
file does not open; which of them are printed; whether the directory of profiles is read; at which tokens the service
directory opens, and which tokens are printed; whether the temporary file is renamed. -/
structure Outcomes where
  tmpOpens : Bool
  reads : Nat
  prints : Nat → Bool
  profilesRead : Bool
  servicesOpen : Nat → Bool
  tokenPrints : Nat → Bool
  renames : Bool

/-- `files_name`: the file names one behind the other. -/
def filesName (p : Profiles) : Text := p.names.flatMap (List.take (entryWidth - 1))

/-- `.service.sp`. -/
def serviceSuffix : Text := ".service.sp".toList

/-- The modes of a process. -/
inductive Mode
  | disable | complain | enforce
  deriving DecidableEq

def Mode.text : Mode → Text
  | .disable => ['d', 'i', 's', 'a', 'b', 'l', 'e']
  | .complain => ['c', 'o', 'm', 'p', 'l', 'a', 'i', 'n']
  | .enforce => ['e', 'n', 'f', 'o', 'r', 'c', 'e']

/-- `strcmp` with the three modes. -/
def isMode (arg : Text) : Bool := arg = Mode.disable.text || arg = Mode.complain.text || arg = Mode.enforce.text

/-- `subtoken` is found among the file names, or in the name of a service profile. -/
def profileFound (p : Profiles) (opens : Bool) (subtoken : Text) : Bool :=
  (strstr (filesName p) subtoken).isSome ||
    opens && p.services.any fun entry => (strstr entry subtoken).isSome && (strstr entry serviceSuffix).isSome

/-- The checks on a token: `none` when it is refused, else whether it is printed. -/
def checkToken (p : Profiles) (opens : Bool) (token : Text) : Option Bool :=
  match token.dropWhile fun c => c ≠ ':' with
  | [] => none
  | _ :: arg =>
      if isMode arg then
        match strtok ':' (token.take (entryWidth - 1)) with
        | none => some false
        | some subtoken => if profileFound p opens subtoken then some true else none
      else none

/-- The loop of `ValidateInput_Arguments`: the tokens it prints. -/
def validateLoop (p : Profiles) (o : Outcomes) : Nat → List Text → Option (List Text)
  | _, [] => some []
  | i, token :: tokens =>
      match checkToken p (o.servicesOpen i) token with
      | none => none
      | some found =>
          (validateLoop p o (i + 1) tokens).map fun printed =>
            if found && o.tokenPrints i then token :: printed else printed

/-- `ValidateInput_Arguments`. -/
def validateInputArguments (p : Profiles) (o : Outcomes) (input : Text) : Option (List Text) :=
  if o.profilesRead then validateLoop p o 0 (strtokAll '#' input) else none

/-- A piece of the old file is to be kept: it has a process name, which does not occur in the input. -/
def keepPiece (input piece : Text) : Bool :=
  match strtok ':' piece with
  | none => false
  | some token => !(strstr input token).isSome

/-- A piece, with its number, gets into the temporary file. -/
def written (o : Outcomes) (input : Text) (x : Text × Nat) : Bool :=
  decide (x.2 < o.reads) && keepPiece input x.1 && o.prints x.2

/-- `set_xRDKCentralComApparmorBlocklist`: whether it returns `OK`, and the file behind it. -/
def setBlocklist (p : Profiles) (o : Outcomes) (old : Option Text) (input : Text) : Bool × Option Text :=
  if input = [] then (false, old)
  else if !o.tmpOpens then (false, old)
  else
    let kept := ((fgetsAll (old.getD [])).zipIdx.filter (written o input)).map Prod.fst
    match validateInputArguments p o input with
    | none => (false, old)
    | some printed => if o.renames then (true, some (terminate '\n' (kept ++ printed))) else (false, old)

/-! ## Pieces of lines -/

/-- The pieces of one line. -/
def linePieces (line : Text) : List Text := fgetsLoop [] (line ++ ['\n'])

section
variable {b line : Text}

theorem fgetsLoop_line (h : '\n' ∉ line) (t : Text) :
    fgetsLoop b (line ++ '\n' :: t) = fgetsLoop b (line ++ ['\n']) ++ fgetsLoop [] t := by
  induction line generalizing b with
  | nil => rfl
  | cons c line ih =>
      rw [List.mem_cons, not_or] at h
      have hc : c ≠ '\n' := Ne.symm h.1
      rw [List.cons_append, List.cons_append, fgetsLoop, fgetsLoop, if_neg hc, if_neg hc]
      split
      · rw [ih h.2, List.cons_append]
      · exact ih h.2

/-- The pieces of a file are those of its lines. -/
theorem fgetsAll_lines {lines : List Text} (h : ∀ line ∈ lines, '\n' ∉ line) :
    fgetsAll (terminate '\n' lines) = lines.flatMap linePieces := by
  induction lines with
  | nil => rfl
  | cons line lines ih =>
      rw [List.forall_mem_cons] at h
      rw [terminate_cons, fgetsAll, fgetsLoop_line h.1, List.flatMap_cons, ← ih h.2]
      rfl

/-- A piece is a part of its line and fits the buffer. -/
theorem fgetsLoop_piece (hb : b.length + 2 ≤ bufSize) {piece : Text} (h : piece ∈ fgetsLoop b (line ++ ['\n'])) :
    piece <:+: b ++ line ∧ piece.length < bufSize := by
  induction line generalizing b with
  | nil =>
      have hpiece : piece = b := by simpa [fgetsLoop] using h
      rw [hpiece, List.append_nil]
      exact ⟨List.infix_rfl, by omega⟩
  | cons c line ih =>
      have hsuffix : line <:+: b ++ c :: line := ((List.suffix_cons c line).trans (List.suffix_append _ _)).isInfix
      have hpos : ([] : Text).length + 2 ≤ bufSize := by decide
      rw [List.cons_append, fgetsLoop] at h
      split at h
      · rcases List.mem_cons.mp h with rfl | h
        · exact ⟨(List.prefix_append _ _).isInfix, by omega⟩
        · obtain ⟨hin, hlen⟩ := ih hpos h
          exact ⟨hin.trans hsuffix, hlen⟩
      · split at h
        · next hfull =>
          rcases List.mem_cons.mp h with rfl | h
          · refine ⟨?_, by rw [List.length_append, List.length_singleton]; omega⟩
            have hprefix := List.prefix_append (b ++ [c]) line
            rw [List.append_assoc, List.singleton_append] at hprefix
            exact hprefix.isInfix
          · obtain ⟨hin, hlen⟩ := ih hpos h
            exact ⟨hin.trans hsuffix, hlen⟩
        · next hfull =>
          have hnext := ih (b := b ++ [c]) (by rw [List.length_append, List.length_singleton]; omega) h
          rwa [List.append_assoc, List.singleton_append] at hnext

theorem mem_linePieces {piece : Text} (h : piece ∈ linePieces line) : piece <:+: line ∧ piece.length < bufSize :=
  fgetsLoop_piece (b := []) (by decide) h

/-- A line that fits the buffer is one piece. -/
theorem fgetsLoop_short (hline : '\n' ∉ line) (hne : b ++ line ≠ []) (hlen : (b ++ line).length < bufSize) :
    (fgetsLoop b (line ++ ['\n'])).filter (fun piece => piece ≠ []) = [b ++ line] := by
  induction line generalizing b with
  | nil =>
      rw [List.append_nil] at hne ⊢
      simpa [fgetsLoop] using hne
  | cons c line ih =>
      rw [List.mem_cons, not_or] at hline
      have hc : c ≠ '\n' := Ne.symm hline.1
      have hassoc : b ++ c :: line = (b ++ [c]) ++ line := by simp
      rw [List.cons_append, fgetsLoop, if_neg hc]
      by_cases hfull : b.length + 2 = bufSize
      · have hnil : line = [] := by
          rw [List.length_append, List.length_cons] at hlen
          exact List.length_eq_zero_iff.mp (by omega)
        subst hnil
        rw [if_pos hfull]
        simp [fgetsLoop]
      · rw [if_neg hfull, hassoc]
        exact ih hline.2 (by simp) (by rw [← hassoc]; exact hlen)

theorem linePieces_short (hline : '\n' ∉ line) (hne : line ≠ []) (hlen : line.length < bufSize) :
    (linePieces line).filter (fun piece => piece ≠ []) = [line] :=
  fgetsLoop_short (b := []) hline hne hlen

end

/-! ## Tokens -/

section
variable {p : Profiles} {o : Outcomes} {opens : Bool} {input t q m x : Text} {d : Char}

theorem infix_intercalate {l : List Text} (h : x ∈ l) (sep : Text) : x <:+: sep.intercalate l := by
  induction l with
  | nil => cases h
  | cons y l ih =>
      cases l with
      | nil => rw [List.mem_singleton.mp h, List.intercalate_singleton]
      | cons z l =>
          rw [List.intercalate_cons_cons, List.append_assoc]
          rcases List.mem_cons.mp h with rfl | h
          · exact (List.prefix_append _ _).isInfix
          · exact (ih h).trans ((List.suffix_append _ _).trans (List.suffix_append _ _)).isInfix

theorem infix_of_mem_strtokAll (h : x ∈ strtokAll d t) : x <:+: t := by
  have hjoin : [d].intercalate (t.splitOn d) = t := List.intercalate_splitOn d
  rw [← hjoin]
  exact infix_intercalate (List.mem_of_mem_filter h) [d]

/-- A text with a colon behind a non-empty part without one. -/
theorem strtok_colon (hne : q ≠ []) (hq : ':' ∉ q) (m : Text) : strtok ':' (q ++ ':' :: m) = some q := by
  have hdrop : (q ++ ':' :: m).dropWhile (fun c => c = ':') = q ++ ':' :: m := by
    obtain ⟨c, r, rfl⟩ := List.exists_cons_of_ne_nil hne
    rw [List.mem_cons, not_or] at hq
    rw [List.cons_append, List.dropWhile_cons_of_neg (by simpa using Ne.symm hq.1)]
  simp only [strtok, hdrop, takeWhile_ne hq, if_neg hne]

/-- The first token of a text in front of its colon, if it is not empty. -/
theorem keepPiece_colon (hne : q ≠ []) (hq : ':' ∉ q) (m : Text) :
    keepPiece input (q ++ ':' :: m) = true ↔ ¬q <:+: input := by
  rw [keepPiece, strtok_colon hne hq]
  show (!(strstr input q).isSome) = true ↔ _
  rw [Bool.not_eq_true', ← Bool.not_eq_true, strstr_isSome]

theorem keepPiece_nil (input : Text) : keepPiece input [] = false := rfl

/-- The part in front of the first colon. -/
def processOf (token : Text) : Text := token.takeWhile fun c => c ≠ ':'

theorem colon_not_mem_processOf (token : Text) : ':' ∉ processOf token := by
  intro h
  have := List.mem_takeWhile_imp h
  simp at this

theorem strtok_eq_none (h : strtok d t = none) : ∀ c ∈ t, c = d := by
  intro c hc
  by_contra hne
  have hsome : (t.dropWhile fun c => c = d) ≠ [] := by
    rw [Ne, List.dropWhile_eq_nil_iff]
    intro hall
    exact hne (of_decide_eq_true (hall c hc))
  obtain ⟨b, r, hr⟩ := List.exists_cons_of_ne_nil hsome
  have hb : b ≠ d := by
    have hhead := List.head?_dropWhile_not (fun c => decide (c = d)) t
    rw [hr] at hhead
    simpa using hhead
  rw [strtok, hr, List.takeWhile_cons_of_pos (by simpa using hb)] at h
  simp at h

/-- A token has a character that is no colon among the first ones: one in front of the colon or that of its mode. -/
theorem strtok_token_ne_none (hq : ':' ∉ q) (m : Mode) : strtok ':' ((q ++ ':' :: m.text).take (entryWidth - 1)) ≠ none := by
  intro hnone
  have hall := strtok_eq_none hnone
  cases q with
  | nil =>
      cases m with
      | disable => exact absurd (hall 'd' (by decide)) (by decide)
      | complain => exact absurd (hall 'c' (by decide)) (by decide)
      | enforce => exact absurd (hall 'e' (by decide)) (by decide)
  | cons c q =>
      have hc : c = ':' := hall c List.mem_cons_self
      exact hq (hc ▸ List.mem_cons_self)

/-- A token that passes the checks is printed, and is a text in front of a colon and a mode. -/
theorem checkToken_some {found : Bool} (h : checkToken p opens t = some found) :
    found = true ∧ ∃ m : Mode, t = processOf t ++ ':' :: m.text := by
  have hsplit : t = processOf t ++ t.dropWhile (fun c => c ≠ ':') := List.takeWhile_append_dropWhile.symm
  rw [checkToken] at h
  split at h
  · cases h
  · next c arg harg =>
    have hc : c = ':' := by
      have hhead := List.head?_dropWhile_not (fun c => decide (c ≠ ':')) t
      rw [harg] at hhead
      simpa using hhead
    subst hc
    split at h
    · next hmode =>
      have hm : ∃ m : Mode, arg = m.text := by
        rw [isMode, Bool.or_eq_true, Bool.or_eq_true, decide_eq_true_eq, decide_eq_true_eq, decide_eq_true_eq] at hmode
        rcases hmode with (hm | hm) | hm
        · exact ⟨_, hm⟩
        · exact ⟨_, hm⟩
        · exact ⟨_, hm⟩
      obtain ⟨m, rfl⟩ := hm
      rw [harg] at hsplit
      refine ⟨?_, m, hsplit⟩
      split at h
      · next hnone =>
        rw [hsplit] at hnone
        exact absurd hnone (strtok_token_ne_none (colon_not_mem_processOf t) m)
      · split at h
        · exact (Option.some.inj h).symm
        · cases h
    · cases h

end

end Tr69HostIf.DeviceInfo
