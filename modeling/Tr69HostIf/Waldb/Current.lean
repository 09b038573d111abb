import Tr69HostIf.Waldb.Listing

/-!
# The current instances

What `appendNextObject` and `replaceWithInstanceNumber` of `waldb.cpp` leave of the name in their buffer.

* `common l l'` : how long two lists are the same;
* `merged O cs A` : the path `A` with the segments `cs` of the name in place of the `{i}` it has in common with `O`;
* `appendLoop_merged` : the loop of `appendNextObject` writes it, if no `{i}` has a name beside it;
* `instances_kept_iff` : with their buffers, the helpers do so exactly when the text fits and the number is printed in
  eight characters.
-/

namespace Tr69HostIf.Waldb
open Store Clib

/-- The length of the longest common prefix. -/
def common {α : Type*} [DecidableEq α] : List α → List α → Nat
  | x :: l, y :: l' => if x = y then common l l' + 1 else 0
  | _, _ => 0

/-- The segment of a name at a segment of the data model, whose own text it takes unless that is `{i}`. -/
def keep (a : Segment) (c : Text) : Text := if a = .inst then c else a.text

/-- The path `A` with the segments `cs` in place of the `{i}` that it has in common with `O`. -/
def merged (O : List Segment) (cs : List Text) (A : List Segment) : List Text :=
  List.zipWith keep (A.take (common O A)) cs ++ (A.drop (common O A)).map Segment.text

section
variable {α : Type*} [DecidableEq α] {l l' p : List α}

theorem common_cons_self (x : α) (l l' : List α) : common (x :: l) (x :: l') = common l l' + 1 := by
  rw [common, if_pos rfl]

theorem common_cons_ne {x y : α} (h : x ≠ y) (l l' : List α) : common (x :: l) (y :: l') = 0 := by
  rw [common, if_neg h]

theorem common_nil_left (l : List α) : common [] l = 0 := by
  obtain - | ⟨x, l⟩ := l
  · rfl
  · rfl

theorem common_nil_right (l : List α) : common l [] = 0 := by
  obtain - | ⟨x, l⟩ := l
  · rfl
  · rfl

theorem take_common (l l' : List α) : l.take (common l l') = l'.take (common l l') := by
  induction l generalizing l' with
  | nil => rw [common_nil_left, List.take_zero, List.take_zero]
  | cons x l ih =>
      obtain - | ⟨y, l'⟩ := l'
      · rw [common_nil_right, List.take_zero, List.take_zero]
      · by_cases hxy : x = y
        · subst hxy
          rw [common_cons_self, List.take_succ_cons, List.take_succ_cons, ih]
        · rw [common_cons_ne hxy, List.take_zero, List.take_zero]

/-- No common prefix is longer. -/
theorem length_le_common (h : p <+: l) (h' : p <+: l') : p.length ≤ common l l' := by
  induction p generalizing l l' with
  | nil => exact Nat.zero_le _
  | cons x p ih =>
      obtain ⟨r, rfl⟩ := h
      obtain ⟨r', rfl⟩ := h'
      rw [List.cons_append, List.cons_append, common_cons_self, List.length_cons]
      exact Nat.succ_le_succ (ih (List.prefix_append p r) (List.prefix_append p r'))

end

/-! ## `appendNextObject` -/

section
variable {O A : List Segment} {cs : List Text} {a o : Segment} {c : Text}

theorem joined_text (A : List Segment) : joined (A.map Segment.text) = pathText A := by
  rw [joined, List.flatMap_map]
  rfl

theorem SegmentText.keep_eq (h : SegmentText a c) : keep a c = c := by
  rw [keep]
  obtain rfl | ⟨rfl, -⟩ := h
  · exact ite_eq_left_iff.mpr fun _ => rfl
  · exact if_pos rfl

theorem merged_cons_self (h : SegmentText a c) (O A : List Segment) (cs : List Text) :
    merged (a :: O) (c :: cs) (a :: A) = c :: merged O cs A := by
  rw [merged, common_cons_self, List.take_succ_cons, List.zipWith_cons_cons, List.drop_succ_cons, h.keep_eq]
  rfl

theorem merged_of_common_zero (h : common O A = 0) (cs : List Text) : merged O cs A = A.map Segment.text := by
  rw [merged, h]
  rfl

/-- The loop stops in front of two segments that differ, unless one of them is `{i}` beside a name. -/
theorem appendLoop_differ (hc : SegmentText o c) (hne : o ≠ a) (h : ∀ n, o = .name n → a ≠ .inst)
    (h' : ∀ n, a = .name n → o ≠ .inst) (X Y : Text) :
    appendLoop (c ++ '.' :: X) false (a.text ++ '.' :: Y) = .ok (a.text ++ '.' :: Y) := by
  cases o with
  | inst =>
      cases a with
      | inst => exact absurd rfl hne
      | name n => exact absurd rfl (h' n rfl)
  | name m =>
      cases a with
      | inst => exact absurd rfl (h m rfl)
      | name n =>
          obtain rfl : c = m.chars := hc.resolve_right fun hinst => Segment.noConfusion hinst.1
          apply appendLoop_names (dot_not_mem m) fun c hc => name_char n hc
          intro hmn
          apply hne
          cases m
          cases n
          exact congrArg Segment.name (Name.mk.injEq .. ▸ hmn)

/-- **The current instances stay**, and the rest is the data model's. -/
theorem appendLoop_merged (hcs : List.Forall₂ SegmentText O cs) (h : ∀ u, ¬Misspliced O A u)
    (h' : ∀ u, ¬Misspliced A O u) : appendLoop (joined cs) false (pathText A) = .ok (joined (merged O cs A)) := by
  induction hcs generalizing A with
  | nil =>
      rw [merged_of_common_zero rfl, joined_text]
      rfl
  | @cons o c O cs hc _ ih =>
      obtain - | ⟨a, A⟩ := A
      · obtain ⟨x, r, hr⟩ := List.exists_cons_of_ne_nil (joined_cons_ne_nil c cs)
        rw [merged_of_common_zero (common_nil_right _), hr]
        rfl
      · rw [joined_cons, pathText_cons]
        by_cases hseg : o = a
        · subst hseg
          have hrest : ∀ u, ¬Misspliced O A u := fun u hu => h (o :: u) (hu.cons o)
          have hrest' : ∀ u, ¬Misspliced A O u := fun u hu => h' (o :: u) (hu.cons o)
          rw [appendLoop_segment hc, ih hrest hrest', merged_cons_self hc, joined_cons]
          rfl
        · rw [merged_of_common_zero (common_cons_ne hseg O A), joined_text, pathText_cons]
          apply appendLoop_differ hc hseg
          · rintro n rfl rfl
            exact h [] ⟨n, O, A, rfl, rfl⟩
          · rintro n rfl rfl
            exact h' [] ⟨n, A, O, rfl, rfl⟩

theorem length_merged (hcs : List.Forall₂ SegmentText O cs) (A : List Segment) :
    (joined (merged O cs A)).length =
      (joined (cs.take (common O A))).length + (pathText (A.drop (common O A))).length := by
  induction hcs generalizing A with
  | nil =>
      rw [merged_of_common_zero (common_nil_left A), common_nil_left, joined_text]
      exact (Nat.zero_add _).symm
  | @cons o c O cs hc _ ih =>
      obtain - | ⟨a, A⟩ := A
      · rw [merged_of_common_zero (common_nil_right _), common_nil_right]
        rfl
      · by_cases hseg : o = a
        · subst hseg
          rw [merged_cons_self hc, common_cons_self, List.take_succ_cons, List.drop_succ_cons, joined_cons, joined_cons,
            List.length_append, List.length_append, List.length_cons, List.length_cons, ih]
          omega
        · rw [merged_of_common_zero (common_cons_ne hseg O A), common_cons_ne hseg, joined_text]
          exact (Nat.zero_add _).symm

/-! ## `replaceWithInstanceNumber` -/

theorem buffer_eq_ok_iff {t u : Text} : buffer t = .ok u ↔ t = u ∧ u.length < maxParameterLength := by
  rw [buffer]
  split
  · next hlt =>
    rw [Except.ok.injEq]
    exact ⟨fun h => ⟨h, h ▸ hlt⟩, fun h => h.1⟩
  · next hlt =>
    refine iff_of_false (fun h => ?_) fun h => hlt (h.1 ▸ h.2)
    cases h

theorem joined_concat (cs : List Text) (c : Text) : joined (cs ++ [c]) = joined cs ++ (c ++ ['.']) := by simp [joined]

/-- The last segment is replaced when the number and its dot are nine characters at most. -/
theorem replaceWithInstanceNumber_eq_iff (cs : List Text) (z : Int) :
    replaceWithInstanceNumber (joined (cs ++ [instanceText])) z = joined (cs ++ [printInt z]) ↔
      -10 ^ 7 < z ∧ z < 10 ^ 8 := by
  have hind : joined (cs ++ [instanceText]) = joined cs ++ indicator := joined_concat cs instanceText
  have hnine : (printInt z ++ ['.']).length ≤ 9 ↔ (printInt z).length ≤ 7 + 1 := by
    rw [List.length_append, List.length_singleton]
    omega
  rw [hind, replaceWithInstanceNumber_concat, joined_concat, List.append_cancel_left_eq, List.take_eq_self_iff, hnine,
    length_printInt_le_iff (by decide)]

end

/-- **The current instances stay exactly when** the texts fit into their buffers and the number of the last instance is
printed in eight characters at most. -/
theorem instances_kept_iff {dm : List ListObject} (hdm : NoNamedSibling dm) {O A : ListObject} (hO : O ∈ dm)
    (hA : A ∈ dm) {cs : List Text} (hcs : List.Forall₂ SegmentText O.path cs) (cs' : List Text) (i : Int) :
    (appendNextObject (joined cs) A.base = .ok (joined (merged O.path cs A.path)) ↔
      (joined (cs.take (common O.path A.path))).length + (pathText (A.path.drop (common O.path A.path))).length <
        maxParameterLength) ∧
    (buffer (replaceWithInstanceNumber (joined (cs' ++ [instanceText])) i) = .ok (joined (cs' ++ [printInt i])) ↔
      (-10 ^ 7 < i ∧ i < 10 ^ 8) ∧ (joined cs').length + (printInt i).length + 1 < maxParameterLength) := by
  constructor
  · rw [appendNextObject, ListObject.base, appendLoop_merged hcs (hdm O hO A hA) (hdm A hA O hO), ← length_merged hcs]
    exact buffer_eq_ok_iff.trans (and_iff_right rfl)
  · have hlen : (joined (cs' ++ [printInt i])).length = (joined cs').length + (printInt i).length + 1 := by
      rw [joined_concat, List.length_append, List.length_append]
      rfl
    rw [buffer_eq_ok_iff, replaceWithInstanceNumber_eq_iff, hlen]

/-- `Device.Services.STBService`. -/
def stbServices : List Text := ["Device".toList, "Services".toList, "STBService".toList]

/-- Behind the second service come its components. -/
theorem instances_kept_stbService :
    appendNextObject "Device.Services.STBService.2.".toList "Device.Services.STBService.{i}.Components.".toList =
        .ok "Device.Services.STBService.2.Components.".toList ∧
      buffer (replaceWithInstanceNumber "Device.Services.STBService.{i}.".toList 2) =
        .ok "Device.Services.STBService.2.".toList := by
  have hcs : List.Forall₂ SegmentText stbServicePath (stbServices ++ [printInt 2]) :=
    .cons (Or.inl rfl) (.cons (Or.inl rfl) (.cons (Or.inl rfl) (.cons (Or.inr ⟨rfl, by decide⟩) .nil)))
  have hname : joined (stbServices ++ [printInt 2]) = "Device.Services.STBService.2.".toList := by decide +kernel
  have hrow : joined (stbServices ++ [instanceText]) = "Device.Services.STBService.{i}.".toList := by decide +kernel
  have hbase : ListObject.base ⟨stbServicePath ++ [.name (.ofLiteral "Components" rfl)],
      ["VideoDecoderNumberOfEntries".toList]⟩ = "Device.Services.STBService.{i}.Components.".toList := by decide +kernel
  have hmerged : joined (merged stbServicePath (stbServices ++ [printInt 2])
      (stbServicePath ++ [.name (.ofLiteral "Components" rfl)])) = "Device.Services.STBService.2.Components.".toList := by
    decide +kernel
  obtain ⟨happend, hreplace⟩ := instances_kept_iff stbService_noNamedSibling
    (O := ⟨stbServicePath, ["Enable".toList]⟩)
    (A := ⟨stbServicePath ++ [.name (.ofLiteral "Components" rfl)], ["VideoDecoderNumberOfEntries".toList]⟩)
    (.tail _ (.head _)) (.tail _ (.tail _ (.head _))) hcs stbServices 2
  rw [hname, hrow] at hreplace
  rw [hname, hbase, hmerged] at happend
  exact ⟨happend.mpr (by decide +kernel), hreplace.mpr ⟨by decide, by decide +kernel⟩⟩

/-- A number of nine digits is written without its dot. -/
theorem nine_digits_without_dot :
    replaceWithInstanceNumber "Device.Services.STBService.{i}.".toList 100000000 =
        "Device.Services.STBService.100000000".toList ∧
      buffer (replaceWithInstanceNumber (joined (stbServices ++ [instanceText])) 100000000) ≠
        .ok (joined (stbServices ++ [printInt 100000000])) := by
  refine ⟨by decide +kernel, fun h => ?_⟩
  have hlt := ((replaceWithInstanceNumber_eq_iff _ _).mp (buffer_eq_ok_iff.mp h).1).2
  exact absurd hlt (by decide)

end Tr69HostIf.Waldb
