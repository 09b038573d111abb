import Tr69HostIf.Waldb.Misses
import Mathlib.Data.List.Forall2

/-!
# Instances of a parameter

* `InstanceOf n t` : the names have the same number of segments, and each segment of `n` is that of `t` or a number
  where `t` has `{i}`;
* `instanceOf_iff_fill` : for a parameter of a data model these are its names with numbers in place of `{i}`;
* `instanceOf_plain`, `instanceOf_one`, `instanceOf_two` : the instances of a text with no, one and two placeholders.
-/

namespace Tr69HostIf.Waldb
open Store

/-- A segment of a name against one of the data model. -/
def SegmentMatch (s t : Text) : Prop := s = t ∨ (t = instanceText ∧ s ≠ [] ∧ ∀ c ∈ s, c.isDigit = true)

/-- Segment by segment, `n` is `t` with numbers in place of `{i}`. -/
def InstanceOf (n t : Text) : Prop := List.Forall₂ SegmentMatch (n.splitOn '.') (t.splitOn '.')

/-! ## Segments -/

section
variable {n s t : Text}

theorem dot_not_mem_instanceText : '.' ∉ instanceText := by decide

theorem dot_not_mem_number (N : Number) : '.' ∉ N.digits := fun h => by
  have := N.ok '.' h
  rw [dot_not_digit] at this
  cases this

theorem InstanceOf.refl (n : Text) : InstanceOf n n := List.forall₂_same.mpr fun _ _ => .inl rfl

/-- A name that begins with a given segment and has others. -/
theorem splitOn_eq_cons {ss : List Text} (h : n.splitOn '.' = s :: ss) (hss : ss ≠ []) :
    '.' ∉ s ∧ ∃ n', n = s ++ '.' :: n' ∧ n'.splitOn '.' = ss := by
  by_cases hdot : '.' ∈ n
  · obtain ⟨u, v, rfl, hu⟩ := List.eq_append_cons_of_mem hdot
    rw [List.splitOn_append_cons_self_of_not_mem hu, List.cons.injEq] at h
    obtain ⟨rfl, rfl⟩ := h
    exact ⟨hu, v, rfl, rfl⟩
  · rw [List.splitOn_eq_singleton hdot, List.cons.injEq] at h
    exact absurd h.2.symm hss

/-- The first segment of a name and the others. -/
theorem instanceOf_cons (ht : '.' ∉ s) :
    InstanceOf n (s ++ '.' :: t) ↔ ∃ s' n', n = s' ++ '.' :: n' ∧ '.' ∉ s' ∧ SegmentMatch s' s ∧ InstanceOf n' t := by
  unfold InstanceOf
  rw [List.splitOn_append_cons_self_of_not_mem ht]
  constructor
  · intro h
    obtain ⟨s', ss, hs', hss, heq⟩ := List.forall₂_cons_right_iff.mp h
    have hne : ss ≠ [] := by
      rintro rfl
      exact List.splitOn_ne_nil '.' t (List.forall₂_nil_left_iff.mp hss)
    obtain ⟨hdot, n', rfl, hn'⟩ := splitOn_eq_cons heq hne
    exact ⟨s', n', rfl, hdot, hs', by rw [hn']; exact hss⟩
  · rintro ⟨s', n', rfl, hdot, hs', hn'⟩
    rw [List.splitOn_append_cons_self_of_not_mem hdot]
    exact .cons hs' hn'

theorem instanceOf_leaf (leaf : Name) : InstanceOf n leaf.chars ↔ n = leaf.chars := by
  unfold InstanceOf
  rw [List.splitOn_eq_singleton (dot_not_mem leaf)]
  constructor
  · intro h
    obtain ⟨s, ss, hs, hss, heq⟩ := List.forall₂_cons_right_iff.mp h
    obtain rfl := List.forall₂_nil_right_iff.mp hss
    have hn : n = s := by
      have : ['.'].intercalate (n.splitOn '.') = n := List.intercalate_splitOn '.'
      rw [heq, List.intercalate_singleton] at this
      exact this.symm
    rw [hn]
    exact hs.resolve_right fun h => name_ne_instanceText leaf h.1
  · rintro rfl
    rw [List.splitOn_eq_singleton (dot_not_mem leaf)]
    exact .cons (.inl rfl) .nil

end

/-- **The instances of a parameter are its names with numbers in place of the placeholders.** -/
theorem instanceOf_iff_fill (path : List Segment) (leaf : Name) {n : Text} (hb : '{' ∉ n) :
    InstanceOf n (pathText path ++ leaf.chars) ↔
      ∃ numbers : List Number, numbers.length = placeholders path ∧ n = fillPath path numbers ++ leaf.chars := by
  induction path generalizing n with
  | nil =>
      rw [show pathText [] ++ leaf.chars = leaf.chars from rfl, instanceOf_leaf]
      exact ⟨fun h => ⟨[], rfl, h⟩, fun ⟨_, _, h⟩ => h⟩
  | cons s path ih =>
      have hcons : pathText (s :: path) ++ leaf.chars = s.text ++ '.' :: (pathText path ++ leaf.chars) := by simp [pathText]
      rw [hcons]
      cases s with
      | name m =>
          rw [Segment.text, instanceOf_cons (dot_not_mem m)]
          constructor
          · rintro ⟨s', n', rfl, -, hs', hn'⟩
            obtain rfl : s' = m.chars := hs'.resolve_right fun h => name_ne_instanceText m h.1
            have hb' : '{' ∉ n' := fun h => hb (by simp [h])
            obtain ⟨numbers, hlen, rfl⟩ := (ih hb').mp hn'
            exact ⟨numbers, hlen, by simp [fillPath]⟩
          · rintro ⟨numbers, hlen, rfl⟩
            have hb' : '{' ∉ fillPath path numbers ++ leaf.chars := fun h => hb (by simp [fillPath, List.mem_append.mp h])
            exact ⟨m.chars, fillPath path numbers ++ leaf.chars, by simp [fillPath], dot_not_mem m, .inl rfl,
              (ih hb').mpr ⟨numbers, hlen, rfl⟩⟩
      | inst =>
          rw [Segment.text, instanceOf_cons dot_not_mem_instanceText]
          constructor
          · rintro ⟨s', n', rfl, -, hs', hn'⟩
            have hs : s' ≠ [] ∧ ∀ c ∈ s', c.isDigit = true := by
              rcases hs' with rfl | ⟨-, hs'⟩
              · exact absurd (by simp [instanceText]) hb
              · exact hs'
            have hb' : '{' ∉ n' := fun h => hb (by simp [h])
            obtain ⟨numbers, hlen, rfl⟩ := (ih hb').mp hn'
            exact ⟨⟨s', hs.1, hs.2⟩ :: numbers, by simp [placeholders, hlen], by simp [fillPath]⟩
          · rintro ⟨numbers, hlen, rfl⟩
            cases numbers with
            | nil => simp [placeholders] at hlen
            | cons N numbers =>
                have hb' : '{' ∉ fillPath path numbers ++ leaf.chars := fun h => hb (by simp [fillPath, List.mem_append.mp h])
                exact ⟨N.digits, fillPath path numbers ++ leaf.chars, by simp [fillPath], dot_not_mem_number N,
                  .inr ⟨rfl, N.ne_nil, N.ok⟩, (ih hb').mpr ⟨numbers, Nat.succ.inj hlen, rfl⟩⟩

/-! ## By the number of placeholders -/

section
variable {dm : DataModel} {n u v w : Text}

/-- A text is cut at its placeholders in one way. -/
theorem pieces_unique {u u' : Text} {vs vs' : List Text} (hu : '{' ∉ u) (hu' : '{' ∉ u') (hvs : ∀ v ∈ vs, '{' ∉ v)
    (hvs' : ∀ v ∈ vs', '{' ∉ v)
    (h : u ++ vs.flatMap (fun v => instanceText ++ v) = u' ++ vs'.flatMap fun v => instanceText ++ v) :
    u = u' ∧ vs = vs' := by
  induction vs generalizing u u' vs' with
  | nil =>
      cases vs' with
      | nil => simpa using h
      | cons v' vs' =>
          rw [List.flatMap_nil, List.append_nil, List.flatMap_cons, List.append_assoc] at h
          exact absurd (brace_mem u' _) (h ▸ hu)
  | cons v vs ih =>
      cases vs' with
      | nil =>
          rw [List.flatMap_nil, List.append_nil, List.flatMap_cons, List.append_assoc] at h
          exact absurd (brace_mem u _) (h.symm ▸ hu')
      | cons v' vs' =>
          rw [List.flatMap_cons, List.flatMap_cons, List.append_assoc, List.append_assoc] at h
          obtain ⟨rfl, h'⟩ := brace_unique hu hu' h
          rw [List.forall_mem_cons] at hvs hvs'
          obtain ⟨rfl, rfl⟩ := ih hvs.1 hvs'.1 hvs.2 hvs'.2 h'
          exact ⟨rfl, rfl⟩

theorem instanceOf_pieces (vs : List Text) (hu : '{' ∉ u) (hvs : ∀ v ∈ vs, '{' ∉ v)
    (hmem : u ++ vs.flatMap (fun v => instanceText ++ v) ∈ names dm) (hb : '{' ∉ n) :
    InstanceOf n (u ++ vs.flatMap fun v => instanceText ++ v) ↔
      ∃ numbers : List Number, numbers.length = vs.length ∧
        n = u ++ (List.zipWith (fun N v => N.digits ++ v) numbers vs).flatten := by
  obtain ⟨o, -, p, -, ht⟩ := mem_names.mp hmem
  have hleaf : ∀ c ∈ p.base.chars, pieceChar c = true := fun c hc => by simp [pieceChar, p.base.ok c hc]
  obtain ⟨h₁, h₂⟩ := pieces_chars o.path hleaf
  have ht' := text_pieces o.path p.base.chars
  rw [ht] at ht'
  obtain ⟨hpu, hpvs⟩ := pieces_unique hu (brace_not_mem h₁) hvs (fun v hv => brace_not_mem (h₂ v hv)) ht'
  have hlen := length_pieces o.path p.base.chars
  rw [← ht, instanceOf_iff_fill o.path p.base hb]
  refine exists_congr fun numbers => ?_
  rw [hpu, hpvs, hlen]
  exact and_congr_right fun hn => by rw [fill_pieces o.path p.base.chars hn]

theorem instanceOf_plain (hu : '{' ∉ u) (hmem : u ∈ names dm) (hb : '{' ∉ n) : InstanceOf n u ↔ n = u := by
  have hnil : u ++ [].flatMap (fun v : Text => instanceText ++ v) = u := List.append_nil u
  have h := instanceOf_pieces [] hu (by simp) (by rw [hnil]; exact hmem) hb
  rw [hnil] at h
  rw [h]
  constructor
  · rintro ⟨numbers, -, rfl⟩
    rw [List.zipWith_nil_right]
    exact List.append_nil u
  · rintro rfl
    exact ⟨[], rfl, (List.append_nil n).symm⟩

theorem instanceOf_one (hu : '{' ∉ u) (hv : '{' ∉ v) (hmem : u ++ (instanceText ++ v) ∈ names dm) (hb : '{' ∉ n) :
    InstanceOf n (u ++ (instanceText ++ v)) ↔ ∃ N : Number, n = u ++ (N.digits ++ v) := by
  have hone : u ++ [v].flatMap (fun v => instanceText ++ v) = u ++ (instanceText ++ v) := by simp
  have h := instanceOf_pieces [v] hu (by simpa using hv) (by rw [hone]; exact hmem) hb
  rw [hone] at h
  rw [h]
  constructor
  · rintro ⟨numbers, hlen, rfl⟩
    obtain ⟨N, rfl⟩ := List.length_eq_one_iff.mp hlen
    exact ⟨N, by simp⟩
  · rintro ⟨N, rfl⟩
    exact ⟨[N], rfl, by simp⟩

theorem instanceOf_two (hu : '{' ∉ u) (hw : '{' ∉ w) (hv : '{' ∉ v)
    (hmem : u ++ (instanceText ++ (w ++ (instanceText ++ v))) ∈ names dm) (hb : '{' ∉ n) :
    InstanceOf n (u ++ (instanceText ++ (w ++ (instanceText ++ v)))) ↔
      ∃ N₁ N₂ : Number, n = u ++ (N₁.digits ++ (w ++ (N₂.digits ++ v))) := by
  have htwo : u ++ [w, v].flatMap (fun v => instanceText ++ v) = u ++ (instanceText ++ (w ++ (instanceText ++ v))) := by simp
  have h := instanceOf_pieces [w, v] hu (by simpa using ⟨hw, hv⟩) (by rw [htwo]; exact hmem) hb
  rw [htwo] at h
  rw [h]
  constructor
  · rintro ⟨numbers, hlen, rfl⟩
    obtain ⟨N₁, N₂, rfl⟩ := List.length_eq_two.mp hlen
    exact ⟨N₁, N₂, by simp⟩
  · rintro ⟨N₁, N₂, rfl⟩
    exact ⟨[N₁, N₂], rfl, by simp⟩

end

end Tr69HostIf.Waldb
