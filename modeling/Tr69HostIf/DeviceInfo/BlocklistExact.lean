import Tr69HostIf.DeviceInfo.Blocklist

/-!
# When the blocklist is updated exactly

* `Accepted` : no operation fails that the function looks at, and every token passes its checks;
  `setBlocklist_accepted`, `setBlocklist_refused` : what becomes of the file;
* `Entry`, `Updates` : the entries of the file, and what an update of them is to be;
* `Exact` : the tokens name profiles, the old entries that stay fit the buffer and do not occur in the input, and what
  is to be written is written;
* `updates_iff` : the file is updated as it should be exactly when nothing is accepted or `Exact` holds.
-/

namespace Tr69HostIf.DeviceInfo
open Store
open Waldb (strstr strstr_isSome)

/-! ## The outcome -/

/-- What the function looks at goes well. -/
structure Accepted (p : Profiles) (o : Outcomes) (input : Text) : Prop where
  nonempty : input ≠ []
  opens : o.tmpOpens = true
  profiles : o.profilesRead = true
  tokens : ∀ x ∈ (strtokAll '#' input).zipIdx, checkToken p (o.servicesOpen x.2) x.1 = some true
  renames : o.renames = true

/-- The pieces of the old file that are written. -/
def keptPieces (o : Outcomes) (input old : Text) : List Text := ((fgetsAll old).zipIdx.filter (written o input)).map Prod.fst

/-- The tokens that are written. -/
def printedTokens (o : Outcomes) (tokens : List Text) : List Text :=
  (tokens.zipIdx.filter fun x => o.tokenPrints x.2).map Prod.fst

section
variable {p : Profiles} {o : Outcomes} {input : Text} {tokens : List Text}

theorem validateLoop_iff {i : Nat} {printed : List Text} :
    validateLoop p o i tokens = some printed ↔
      (∀ x ∈ tokens.zipIdx i, checkToken p (o.servicesOpen x.2) x.1 = some true) ∧
        ((tokens.zipIdx i).filter fun x => o.tokenPrints x.2).map Prod.fst = printed := by
  induction tokens generalizing i printed with
  | nil =>
      rw [validateLoop, Option.some.injEq]
      exact ⟨fun h => ⟨fun x hx => (by cases hx), h⟩, fun h => h.2⟩
  | cons token tokens ih =>
      rw [validateLoop, List.zipIdx_cons, List.forall_mem_cons]
      cases hcheck : checkToken p (o.servicesOpen i) token with
      | none => simp
      | some found =>
          obtain rfl := (checkToken_some hcheck).1
          have hpos := List.filter_cons_of_pos (p := fun x : Text × Nat => o.tokenPrints x.2) (a := (token, i))
            (l := tokens.zipIdx (i + 1))
          have hneg := List.filter_cons_of_neg (p := fun x : Text × Nat => o.tokenPrints x.2) (a := (token, i))
            (l := tokens.zipIdx (i + 1))
          have hhead : (((token, i) :: tokens.zipIdx (i + 1)).filter fun x => o.tokenPrints x.2).map Prod.fst =
              (fun rest => if (true && o.tokenPrints i) = true then token :: rest else rest)
                (((tokens.zipIdx (i + 1)).filter fun x => o.tokenPrints x.2).map Prod.fst) := by
            by_cases hprint : o.tokenPrints i = true
            · rw [hpos hprint, List.map_cons]
              exact (if_pos hprint).symm
            · rw [hneg hprint]
              exact (if_neg hprint).symm
          rw [hhead, Option.map_eq_some_iff]
          constructor
          · rintro ⟨rest, hrest, heq⟩
            obtain ⟨hall, hprinted⟩ := ih.mp hrest
            rw [hprinted]
            exact ⟨⟨rfl, hall⟩, heq⟩
          · rintro ⟨⟨-, hall⟩, heq⟩
            exact ⟨_, ih.mpr ⟨hall, rfl⟩, heq⟩

theorem setBlocklist_accepted (old : Option Text) (h : Accepted p o input) :
    setBlocklist p o old input =
      (true, some (terminate '\n' (keptPieces o input (old.getD []) ++ printedTokens o (strtokAll '#' input)))) := by
  have hvalid : validateInputArguments p o input = some (printedTokens o (strtokAll '#' input)) := by
    rw [validateInputArguments, if_pos h.profiles]
    exact validateLoop_iff.mpr ⟨h.tokens, rfl⟩
  rw [setBlocklist, if_neg h.nonempty, if_neg (by rw [h.opens]; decide), hvalid]
  exact if_pos h.renames

theorem setBlocklist_refused (old : Option Text) (h : ¬Accepted p o input) : setBlocklist p o old input = (false, old) := by
  rw [setBlocklist]
  split
  · rfl
  · next hinput =>
    split
    · rfl
    · next hopens =>
      split
      · rfl
      · next printed hvalid =>
        split
        · next hrenames =>
          have hopens' : o.tmpOpens = true := by simpa using hopens
          rw [validateInputArguments] at hvalid
          split at hvalid
          · next hprofiles => exact absurd ⟨hinput, hopens', hprofiles, (validateLoop_iff.mp hvalid).1, hrenames⟩ h
          · cases hvalid
        · rfl

end

/-! ## Entries -/

/-- An entry of the blocklist. -/
structure Entry where
  process : Text
  ne_nil : process ≠ []
  colon : ':' ∉ process
  newline : '\n' ∉ process
  mode : Mode

/-- The line of an entry. -/
def Entry.line (e : Entry) : Text := e.process ++ ':' :: e.mode.text

/-- A file of entries. -/
def fileText (entries : List Entry) : Text := terminate '\n' (entries.map Entry.line)

/-- A process has a profile: a file of its name, or the service profile of that name. -/
def HasProfile (p : Profiles) (process : Text) : Prop :=
  process ∈ p.names ∧ process ≠ ['.'] ∧ process ≠ ['.', '.'] ∨ process ++ serviceSuffix ∈ p.services

/-- The process names of the tokens. -/
def named (input : Text) : List Text := (strtokAll '#' input).map processOf

/-- The old entries that no token names. -/
def unnamed (entries : List Entry) (input : Text) : List Entry := entries.filter fun e => !(named input).contains e.process

theorem mem_unnamed {entries : List Entry} {input : Text} {e : Entry} :
    e ∈ unnamed entries input ↔ e ∈ entries ∧ e.process ∉ named input := by
  rw [unnamed, List.mem_filter, Bool.not_eq_true', ← Bool.not_eq_true, List.contains_iff_mem]

/-- What an update of the blocklist is to be. -/
structure Updates (p : Profiles) (o : Outcomes) (old : Option (List Entry)) (input : Text) : Prop where
  unchanged : (setBlocklist p o (old.map fileText) input).1 = false →
    (setBlocklist p o (old.map fileText) input).2 = old.map fileText
  tokens : (setBlocklist p o (old.map fileText) input).1 = true →
    ∀ t ∈ strtokAll '#' input, ∃ e : Entry, t = e.line ∧ HasProfile p e.process
  contents : (setBlocklist p o (old.map fileText) input).1 = true →
    (setBlocklist p o (old.map fileText) input).2 =
      some (terminate '\n' ((unnamed (old.getD []) input).map Entry.line ++ strtokAll '#' input))

section
variable {e e' : Entry} {entries : List Entry} {input piece : Text}

theorem processOf_line (e : Entry) : processOf e.line = e.process := takeWhile_ne e.colon _

theorem mode_plain (m : Mode) : '\n' ∉ m.text ∧ ':' ∉ m.text := by
  cases m <;> decide

theorem newline_not_mem_line (e : Entry) : '\n' ∉ e.line := by
  rw [Entry.line, List.mem_append, not_or]
  refine ⟨e.newline, ?_⟩
  rw [List.mem_cons, not_or]
  exact ⟨by decide, (mode_plain e.mode).1⟩

theorem line_ne_nil (e : Entry) : e.line ≠ [] := by
  rw [Entry.line]
  simp

/-- An entry is kept when its process does not occur in the input. -/
theorem keepPiece_line : keepPiece input e.line = true ↔ ¬e.process <:+: input := keepPiece_colon e.ne_nil e.colon _

theorem infix_of_named (h : e.process ∈ named input) (hline : ∀ t ∈ strtokAll '#' input, ∃ e : Entry, t = e.line) :
    e.process <:+: input := by
  obtain ⟨t, ht, hprocess⟩ := List.mem_map.mp h
  obtain ⟨e', rfl⟩ := hline t ht
  rw [processOf_line] at hprocess
  rw [← hprocess]
  exact (List.prefix_append _ _).isInfix.trans (infix_of_mem_strtokAll ht)

/-- What stands in front of the colon of a part of a line ends the process name. -/
theorem suffix_of_piece (h : e'.line <:+: e.line) : e'.process <:+ e.process := by
  obtain ⟨x, y, hxy⟩ := h
  have hcount : (x ++ e'.line ++ y).count ':' = 1 := by
    rw [hxy, Entry.line, List.count_append, List.count_cons_self, List.count_eq_zero.mpr e.colon,
      List.count_eq_zero.mpr (mode_plain e.mode).2]
  have hx : ':' ∉ x := by
    rw [List.count_append, List.count_append, Entry.line, List.count_append, List.count_cons_self] at hcount
    rw [← List.count_eq_zero]
    omega
  have hfront : ':' ∉ x ++ e'.process := by
    rw [List.mem_append, not_or]
    exact ⟨hx, e'.colon⟩
  have hsplit : (x ++ e'.process) ++ ':' :: (e'.mode.text ++ y) = e.process ++ ':' :: e.mode.text := by
    rw [Entry.line, Entry.line] at hxy
    simpa using hxy
  obtain ⟨hprocess, -⟩ := cut_unique hfront e.colon hsplit
  exact ⟨x, hprocess⟩

/-- A part of a line that a token names is not kept as a line of its own. -/
theorem not_keepPiece_of_named (hnamed : e.process ∈ named input) (hline : ∀ t ∈ strtokAll '#' input, ∃ e : Entry, t = e.line)
    (h : e'.line <:+: e.line) : keepPiece input e'.line = false := by
  rw [← Bool.not_eq_true, keepPiece_line, not_not]
  exact (suffix_of_piece h).isInfix.trans (infix_of_named hnamed hline)

end

/-! ## Pieces with their entries -/

/-- The pieces of the old file, each with its entry and its number. -/
def oldPieces (entries : List Entry) : List ((Entry × Text) × Nat) :=
  (entries.flatMap fun e => (linePieces e.line).map fun piece => (e, piece)).zipIdx

/-- The piece gets into the temporary file. -/
def pieceWritten (o : Outcomes) (input : Text) (y : (Entry × Text) × Nat) : Bool := written o input (y.1.2, y.2)

/-- The piece is one of an entry that is to stay. -/
def pieceStays (input : Text) (y : (Entry × Text) × Nat) : Bool := !(named input).contains y.1.1.process && decide (y.1.2 ≠ [])

section
variable {o : Outcomes} {entries : List Entry} {input : Text} {y : (Entry × Text) × Nat}

theorem mem_oldPieces (h : y ∈ oldPieces entries) : y.1.1 ∈ entries ∧ y.1.2 ∈ linePieces y.1.1.line := by
  have hmem := List.mem_map_of_mem (f := Prod.fst) h
  rw [oldPieces, List.zipIdx_map_fst, List.mem_flatMap] at hmem
  obtain ⟨e, he, hpiece⟩ := hmem
  obtain ⟨piece, hpiece, heq⟩ := List.mem_map.mp hpiece
  rw [← heq]
  exact ⟨he, hpiece⟩

theorem fgetsAll_fileText (entries : List Entry) :
    (fgetsAll (fileText entries)).zipIdx = (oldPieces entries).map fun y => (y.1.2, y.2) := by
  have hplain : ∀ line ∈ entries.map Entry.line, '\n' ∉ line := by
    intro line hline
    obtain ⟨e, -, rfl⟩ := List.mem_map.mp hline
    exact newline_not_mem_line e
  have hpieces : fgetsAll (fileText entries) =
      (entries.flatMap fun e => (linePieces e.line).map fun piece => (e, piece)).map Prod.snd := by
    rw [fileText, fgetsAll_lines hplain, List.flatMap_map, List.map_flatMap]
    congr 1
    funext e
    rw [List.map_map]
    exact (List.map_id _).symm
  rw [hpieces, List.zipIdx_map, oldPieces]
  rfl

theorem keptPieces_eq (entries : List Entry) :
    keptPieces o input (fileText entries) = ((oldPieces entries).filter (pieceWritten o input)).map fun y => y.1.2 := by
  rw [keptPieces, fgetsAll_fileText, List.filter_map, List.map_map]
  rfl

/-- When the entries that stay fit the buffer, their pieces are their lines. -/
theorem stays_eq (hshort : ∀ e ∈ entries, e.process ∉ named input → e.line.length < bufSize) :
    ((oldPieces entries).filter (pieceStays input)).map (fun y => y.1.2) = (unnamed entries input).map Entry.line := by
  have hfst : ((oldPieces entries).filter (pieceStays input)).map (fun y => y.1.2) =
      ((entries.flatMap fun e => (linePieces e.line).map fun piece => (e, piece)).filter fun x =>
        !(named input).contains x.1.process && decide (x.2 ≠ [])).map Prod.snd := by
    have hzip := zipIdx_filter_fst (fun x : Entry × Text => !(named input).contains x.1.process && decide (x.2 ≠ []))
      (entries.flatMap fun e => (linePieces e.line).map fun piece => (e, piece)) 0
    rw [← hzip, List.map_map]
    rfl
  rw [hfst]
  clear hfst
  induction entries with
  | nil => rfl
  | cons e entries ih =>
      rw [List.forall_mem_cons] at hshort
      rw [List.flatMap_cons, List.filter_append, List.map_append, ih hshort.2, unnamed, unnamed]
      by_cases hnamed : e.process ∈ named input
      · have hnone : ((linePieces e.line).map fun piece => (e, piece)).filter
            (fun x => !(named input).contains x.1.process && decide (x.2 ≠ [])) = [] := by
          rw [List.filter_eq_nil_iff]
          intro x hx
          obtain ⟨piece, -, rfl⟩ := List.mem_map.mp hx
          simp [hnamed]
        rw [hnone, List.filter_cons_of_neg (by simpa using hnamed)]
        rfl
      · have hone : (((linePieces e.line).map fun piece => (e, piece)).filter
            (fun x => !(named input).contains x.1.process && decide (x.2 ≠ []))).map Prod.snd = [e.line] := by
          rw [List.filter_map, List.map_map, ← linePieces_short (newline_not_mem_line e) (line_ne_nil e) (hshort.1 hnamed)]
          simp [hnamed, Function.comp_def]
        rw [hone, List.filter_cons_of_pos (by simpa using hnamed)]
        rfl

theorem keepPiece_of_written (h : pieceWritten o input y = true) : keepPiece input y.1.2 = true := by
  rw [pieceWritten, written, Bool.and_eq_true, Bool.and_eq_true] at h
  exact h.1.2

/-- What is written stays, if it belongs to an entry that no token names. -/
theorem stays_of_written (h : pieceWritten o input y = true) (hunnamed : y.1.1.process ∉ named input) :
    pieceStays input y = true := by
  have hne : y.1.2 ≠ [] := by
    intro hnil
    have := keepPiece_of_written h
    rw [hnil, keepPiece_nil] at this
    cases this
  rw [pieceStays, Bool.and_eq_true, Bool.not_eq_true', ← Bool.not_eq_true, List.contains_iff_mem, decide_eq_true_eq]
  exact ⟨hunnamed, hne⟩

end

/-! ## Exactness -/

/-- The tokens name profiles, the entries that stay fit the buffer, their pieces are written and no others, and all tokens
are. -/
structure Exact (p : Profiles) (o : Outcomes) (entries : List Entry) (input : Text) : Prop where
  profiles : ∀ t ∈ strtokAll '#' input, processOf t ≠ [] ∧ '\n' ∉ processOf t ∧ HasProfile p (processOf t)
  fits : ∀ e ∈ entries, e.process ∉ named input → e.line.length < bufSize
  stays : ∀ y ∈ oldPieces entries, pieceStays input y = true → pieceWritten o input y = true
  dropped : ∀ y ∈ oldPieces entries, y.1.1.process ∈ named input → pieceWritten o input y = false
  tokens : ∀ x ∈ (strtokAll '#' input).zipIdx, o.tokenPrints x.2 = true

section
variable {p : Profiles} {o : Outcomes} {old : Option (List Entry)} {entries : List Entry} {input : Text}

/-- The tokens are entries with a profile exactly when the names in front of their colons are. -/
theorem tokens_iff (h : Accepted p o input) :
    (∀ t ∈ strtokAll '#' input, ∃ e : Entry, t = e.line ∧ HasProfile p e.process) ↔
      ∀ t ∈ strtokAll '#' input, processOf t ≠ [] ∧ '\n' ∉ processOf t ∧ HasProfile p (processOf t) := by
  constructor
  · intro hall t ht
    obtain ⟨e, rfl, hprofile⟩ := hall t ht
    rw [processOf_line]
    exact ⟨e.ne_nil, e.newline, hprofile⟩
  · intro hall t ht
    obtain ⟨hne, hnewline, hprofile⟩ := hall t ht
    obtain ⟨i, hi⟩ := List.mem_iff_getElem?.mp ht
    obtain ⟨-, m, hm⟩ := checkToken_some (h.tokens (t, i) (List.mem_zipIdx_iff_getElem?.mpr hi))
    exact ⟨⟨processOf t, hne, colon_not_mem_processOf t, hnewline, m⟩, hm, hprofile⟩

theorem printedTokens_iff (tokens : List Text) :
    printedTokens o tokens = tokens ↔ ∀ x ∈ tokens.zipIdx, o.tokenPrints x.2 = true := by
  have hall : ((tokens.zipIdx).filter fun _ => true).map Prod.fst = tokens := by
    rw [List.filter_true, List.zipIdx_map_fst]
  have h := filter_map_eq_iff (l := tokens.zipIdx) (p := fun x => o.tokenPrints x.2) (q := fun _ => true) Prod.fst
    (fun _ _ _ => rfl)
  rw [hall] at h
  exact h.trans (forall₂_congr fun _ _ => ⟨fun h => h rfl, fun h _ => h⟩)

/-- The lines that are written, and those that should be, hold no end of line. -/
theorem lines_plain (o : Outcomes) (entries : List Entry) (hline : ∀ t ∈ strtokAll '#' input, ∃ e : Entry, t = e.line) :
    (∀ x ∈ keptPieces o input (fileText entries) ++ printedTokens o (strtokAll '#' input), '\n' ∉ x) ∧
      ∀ x ∈ (unnamed entries input).map Entry.line ++ strtokAll '#' input, '\n' ∉ x := by
  have htoken : ∀ t ∈ strtokAll '#' input, '\n' ∉ t := by
    intro t ht
    obtain ⟨e, rfl⟩ := hline t ht
    exact newline_not_mem_line e
  constructor
  · intro x hx
    rcases List.mem_append.mp hx with hx | hx
    · rw [keptPieces_eq] at hx
      obtain ⟨y, hy, rfl⟩ := List.mem_map.mp hx
      have hpiece := mem_linePieces (mem_oldPieces (List.mem_of_mem_filter hy)).2
      exact fun h => newline_not_mem_line y.1.1 (hpiece.1.subset h)
    · obtain ⟨z, hz, rfl⟩ := List.mem_map.mp hx
      apply htoken
      have hmem := List.mem_map_of_mem (f := Prod.fst) (List.mem_of_mem_filter hz)
      rwa [List.zipIdx_map_fst] at hmem
  · intro x hx
    rcases List.mem_append.mp hx with hx | hx
    · obtain ⟨e, -, rfl⟩ := List.mem_map.mp hx
      exact newline_not_mem_line e
    · exact htoken x hx

/-- The tokens can be told from what stands in front of them: what is kept is none of them, and what should be kept
belongs to other processes. -/
theorem eq_of_contents (hline : ∀ t ∈ strtokAll '#' input, ∃ e : Entry, t = e.line)
    (h : keptPieces o input (fileText entries) ++ printedTokens o (strtokAll '#' input) =
      (unnamed entries input).map Entry.line ++ strtokAll '#' input) :
    keptPieces o input (fileText entries) = (unnamed entries input).map Entry.line ∧
      printedTokens o (strtokAll '#' input) = strtokAll '#' input := by
  apply append_eq_append_of_not_mem _ _ _ h
  · intro x hx hmem
    rw [keptPieces_eq] at hx
    obtain ⟨y, hy, rfl⟩ := List.mem_map.mp hx
    obtain ⟨e, he⟩ := hline _ hmem
    have hkeep := keepPiece_of_written (List.mem_filter.mp hy).2
    have hnamed : e.process ∈ named input := by
      rw [← processOf_line, ← he]
      exact List.mem_map_of_mem hmem
    rw [he, not_keepPiece_of_named hnamed hline List.infix_rfl] at hkeep
    cases hkeep
  · intro x hx hmem
    obtain ⟨e, he, rfl⟩ := List.mem_map.mp hx
    have hunnamed := (mem_unnamed.mp he).2
    apply hunnamed
    rw [← processOf_line]
    exact List.mem_map_of_mem hmem
  · intro x hx
    obtain ⟨z, hz, rfl⟩ := List.mem_map.mp hx
    have hmem := List.mem_map_of_mem (f := Prod.fst) (List.mem_of_mem_filter hz)
    rwa [List.zipIdx_map_fst] at hmem

/-- What is kept is what should be exactly when each piece is treated as it should be. -/
theorem kept_iff (hline : ∀ t ∈ strtokAll '#' input, ∃ e : Entry, t = e.line) :
    keptPieces o input (fileText entries) = (unnamed entries input).map Entry.line ↔
      (∀ e ∈ entries, e.process ∉ named input → e.line.length < bufSize) ∧
        (∀ y ∈ oldPieces entries, pieceStays input y = true → pieceWritten o input y = true) ∧
        ∀ y ∈ oldPieces entries, y.1.1.process ∈ named input → pieceWritten o input y = false := by
  have hsame : (∀ y ∈ oldPieces entries, y.1.1.process ∈ named input → pieceWritten o input y = false) →
      ∀ y ∈ oldPieces entries, pieceWritten o input y = true → pieceStays input y = true := by
    intro hdropped y hy hwritten
    apply stays_of_written hwritten
    intro hnamed
    rw [hdropped y hy hnamed] at hwritten
    cases hwritten
  constructor
  · intro heq
    have hfits : ∀ e ∈ entries, e.process ∉ named input → e.line.length < bufSize := by
      intro e he hunnamed
      have hmem : e.line ∈ (unnamed entries input).map Entry.line :=
        List.mem_map_of_mem (mem_unnamed.mpr ⟨he, hunnamed⟩)
      rw [← heq, keptPieces_eq] at hmem
      obtain ⟨y, hy, hpiece⟩ := List.mem_map.mp hmem
      rw [← hpiece]
      exact (mem_linePieces (mem_oldPieces (List.mem_of_mem_filter hy)).2).2
    have hdropped : ∀ y ∈ oldPieces entries, y.1.1.process ∈ named input → pieceWritten o input y = false := by
      intro y hy hnamed
      by_contra hwritten
      rw [Bool.not_eq_false] at hwritten
      have hmem : y.1.2 ∈ keptPieces o input (fileText entries) := by
        rw [keptPieces_eq]
        exact List.mem_map_of_mem (f := fun y : (Entry × Text) × Nat => y.1.2) (List.mem_filter.mpr ⟨hy, hwritten⟩)
      rw [heq] at hmem
      obtain ⟨e', -, hpiece⟩ := List.mem_map.mp hmem
      have hin := (mem_linePieces (mem_oldPieces hy).2).1
      have hkeep := keepPiece_of_written hwritten
      rw [← hpiece] at hin hkeep
      rw [not_keepPiece_of_named hnamed hline hin] at hkeep
      cases hkeep
    refine ⟨hfits, ?_, hdropped⟩
    rw [keptPieces_eq, ← stays_eq hfits] at heq
    exact (filter_map_eq_iff _ (hsame hdropped)).mp heq
  · rintro ⟨hfits, hstays, hdropped⟩
    rw [keptPieces_eq, ← stays_eq hfits]
    exact (filter_map_eq_iff _ (hsame hdropped)).mpr hstays

/-- **The blocklist is updated as it should be exactly when nothing is accepted or the update is exact.** -/
theorem updates_iff (p : Profiles) (o : Outcomes) (old : Option (List Entry)) (input : Text) :
    Updates p o old input ↔ (Accepted p o input → Exact p o (old.getD []) input) := by
  have hold : (old.map fileText).getD [] = fileText (old.getD []) := by
    cases old <;> rfl
  by_cases haccepted : Accepted p o input
  · have hset := setBlocklist_accepted (old.map fileText) haccepted
    rw [hold] at hset
    constructor
    · rintro ⟨-, htokens, hcontents⟩ -
      have hvalid := htokens (by rw [hset])
      have hline : ∀ t ∈ strtokAll '#' input, ∃ e : Entry, t = e.line := fun t ht =>
        (hvalid t ht).imp fun e he => he.1
      have htext := hcontents (by rw [hset])
      rw [hset, Option.some.injEq] at htext
      obtain ⟨hplain, hplain'⟩ := lines_plain o (old.getD []) hline
      obtain ⟨hkept, hprinted⟩ := eq_of_contents hline (terminate_inj hplain hplain' htext)
      obtain ⟨hfits, hstays, hdropped⟩ := (kept_iff hline).mp hkept
      exact ⟨(tokens_iff haccepted).mp hvalid, hfits, hstays, hdropped, (printedTokens_iff _).mp hprinted⟩
    · intro h
      obtain ⟨hprofiles, hfits, hstays, hdropped, htokens⟩ := h haccepted
      have hvalid := (tokens_iff haccepted).mpr hprofiles
      have hline : ∀ t ∈ strtokAll '#' input, ∃ e : Entry, t = e.line := fun t ht =>
        (hvalid t ht).imp fun e he => he.1
      refine ⟨fun hfalse => ?_, fun _ => hvalid, fun _ => ?_⟩
      · rw [hset] at hfalse
        cases hfalse
      · rw [hset, (kept_iff hline).mpr ⟨hfits, hstays, hdropped⟩, (printedTokens_iff _).mpr htokens]
  · have hset := setBlocklist_refused (old.map fileText) haccepted
    refine ⟨fun _ h => absurd h haccepted, fun _ => ⟨fun _ => by rw [hset], ?_, ?_⟩⟩
    · intro h
      rw [hset] at h
      cases h
    · intro h
      rw [hset] at h
      cases h

end

/-- Every file operation goes well. -/
def Outcomes.good (reads : Nat) : Outcomes := ⟨true, reads, fun _ => true, true, fun _ => true, fun _ => true, true⟩

/-- A profile for `sshd`. -/
def sshdProfiles : Profiles := ⟨[['.'], ['.', '.'], ['s', 's', 'h', 'd']], []⟩

/-- `ssh:disable`. -/
def sshEntry : Entry := ⟨['s', 's', 'h'], by decide, by decide, by decide, .disable⟩

/-- The entry of `ssh` disappears when `sshd` is confined. -/
theorem ssh_entry_lost :
    setBlocklist sshdProfiles (.good 1) (some (fileText [sshEntry])) "sshd:enforce".toList =
        (true, some "sshd:enforce\n".toList) ∧
    ¬Updates sshdProfiles (.good 1) (some [sshEntry]) "sshd:enforce".toList := by
  have hset : setBlocklist sshdProfiles (.good 1) ((some [sshEntry]).map fileText) "sshd:enforce".toList =
      (true, some "sshd:enforce\n".toList) := by decide +kernel
  refine ⟨hset, fun h => ?_⟩
  have hcontents := h.contents (by rw [hset])
  rw [hset] at hcontents
  revert hcontents
  decide +kernel

end Tr69HostIf.DeviceInfo
