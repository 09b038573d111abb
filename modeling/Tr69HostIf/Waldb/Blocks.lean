import Tr69HostIf.Waldb.Regular

/-!
# Blocks of the data model

* `Block.head_open` : the first object of a block is a table with an open `{i}`, or it has none;
* `Block.tail`, `Block.rest` : the block behind its first object, and behind a table and what is below it;
* `Block.nested` : what is below a table is the block of the call for one of its instances.
-/

namespace Tr69HostIf.Waldb
open Store Clib

section
variable {env : Env} {dm : List XmlObject} {request : Text} {frame : Frame} {h : List Segment} {s : Place}
variable {o a : XmlObject} {D L R : List XmlObject}

theorem span_append {p : XmlObject → Bool} {L R : List XmlObject} (hR : ∀ a ∈ R.head?, p a = false) :
    (L ++ R).takeWhile p = L.takeWhile p ∧ (L ++ R).dropWhile p = L.dropWhile p ++ R := by
  induction L with
  | nil =>
      cases R with
      | nil => exact ⟨rfl, rfl⟩
      | cons a R =>
          have ha : ¬p a = true := by simp [hR a rfl]
          simp [ha]
  | cons b L ih =>
      by_cases hb : p b = true
      · simp [hb, ih.1, ih.2]
      · simp [hb]

/-- An open place in front of an `{i}` lies under the request. -/
theorem asked_of_open {z : List Segment} {s' : Place} (hs' : s' ∈ places (follow env) s z) (hopen : s'.IsOpen) :
    asked env s.ahead s.key (z ++ [.inst]) = true := by
  induction z generalizing s with
  | nil =>
      rw [places, List.mem_singleton] at hs'
      subst hs'
      rcases hopen with hnil | hopen
      · rw [hnil]
        exact asked_nil _
      · rw [hopen, List.nil_append, asked_cons_inst]
        rfl
  | cons seg z ih =>
      rw [places, List.mem_flatMap] at hs'
      obtain ⟨s₁, hs₁, hs'⟩ := hs'
      rw [follow, List.mem_map] at hs₁
      obtain ⟨c, hc, rfl⟩ := hs₁
      have hrest := ih hs'
      cases hahead : s.ahead with
      | nil => exact asked_nil _
      | cons q qs =>
          have htail : (s.enter c).ahead = qs := by rw [Place.enter, hahead, List.tail_cons]
          rw [htail] at hrest
          rw [hahead, List.head?_cons] at hc
          by_cases hq : q = instanceText
          · subst hq
            cases seg with
            | name n =>
                rw [choices] at hc
                split at hc
                · next hn =>
                  exact absurd (show n.chars = instanceText by simpa [eq_comm] using hn) (name_ne_instanceText n)
                · cases hc
            | inst =>
                have hc' : c ∈ instances env s.key := by simpa [choices] using hc
                rw [List.cons_append, asked_cons_inst]
                simp only [decide_true, Bool.true_and, Bool.or_eq_true, List.any_eq_true]
                exact Or.inr ⟨c, hc', hrest⟩
          · rw [List.cons_append, asked_cons hq, List.any_eq_true]
            exact ⟨c, hc, hrest⟩

/-- The head of a block is a table with an open `{i}`, or has none. -/
theorem Block.head_open (hdoc : DocumentOrder dm) (hreg : Regular env dm request) (hs : Stands env dm request frame h s)
    (hb : Block env dm request frame h s D (o :: L) R) (hasked : isAsked env request o = true)
    (hopens : Opens env s (o.path.drop h.length)) :
    ∃ z s', o.path = h ++ z ++ [.inst] ∧ Through (follow env) s z s' ∧ s'.IsOpen ∧
      s'.shown ++ indicator = currentText h s o ∧ TableRight env dm request o s' := by
  obtain ⟨z, y, s', hpath, hthrough, hopen, htext⟩ := hopens
  have hin := hb.inside o List.mem_cons_self hasked
  have hfull : o.path = h ++ z ++ .inst :: y := by
    obtain ⟨x, hx⟩ := hin.path
    rw [← hx, List.drop_left] at hpath
    rw [← hx, hpath, List.append_assoc]
  have hpre : z ++ [.inst] <+: o.path.drop h.length := by
    rw [hpath]
    exact ⟨y, by simp⟩
  obtain ⟨T, hT, hTpath⟩ := hb.closed o List.mem_cons_self hasked z hpre s' hthrough.mem_places hopen
  have hTo : T.path <+: o.path := by
    rw [hTpath, hfull]
    exact ⟨y, by simp⟩
  have hdoc' : DocumentOrder (o :: (L ++ R)) := by
    have := hb.split ▸ hdoc
    rw [List.append_assoc] at this
    exact this.of_append
  obtain rfl : T = o := by
    rcases List.mem_cons.mp hT with hTo' | hTL
    · exact hTo'
    · exact absurd hTo (hdoc'.1 T (List.mem_append_left R hTL))
  have hy : y = [] := by
    have := hTpath.symm.trans hfull
    simpa using this
  subst hy
  have hmem : T ∈ dm := by
    rw [hb.split]
    simp
  have hplace : s' ∈ places (follow env) (start request) (h ++ z) := mem_places_append hs.place hthrough.mem_places
  obtain ⟨T', hT', hT'path, hright⟩ := hreg.tables T hmem hasked (h ++ z) (by rw [hTpath]) s' hplace hopen
  obtain rfl : T' = T := hdoc.unique hT' hmem (by rw [hT'path, hTpath])
  refine ⟨z, s', hTpath, hthrough, hopen, ?_, hright⟩
  simpa [pathText, currentText] using htext


/-- The objects of a block behind its first one. -/
theorem Block.tail (hb : Block env dm request frame h s D (o :: L) R)
    (hnot : ∀ z s', o.path = h ++ z ++ [.inst] → s' ∈ places (follow env) s z → ¬s'.IsOpen) :
    Block env dm request frame h s (D ++ [o]) L R where
  split := by rw [hb.split]; simp
  inside a ha := hb.inside a (List.mem_cons_of_mem o ha)
  all hrec a ha := hb.all hrec a (List.mem_cons_of_mem o ha)
  closed a ha hasked z hz s' hs' hopen := by
    obtain ⟨T, hT, hpath⟩ := hb.closed a (List.mem_cons_of_mem o ha) hasked z hz s' hs' hopen
    rcases List.mem_cons.mp hT with rfl | hT'
    · exact absurd hopen (hnot z s' hpath hs')
    · exact ⟨T, hT', hpath⟩
  after := hb.after
  ends := hb.ends

/-- An object that is not under the request is no open table. -/
theorem Block.not_open_of_not_asked (hs : Stands env dm request frame h s) (hb : Block env dm request frame h s D (o :: L) R)
    (hasked : isAsked env request o = false) :
    ∀ z s', o.path = h ++ z ++ [.inst] → s' ∈ places (follow env) s z → ¬s'.IsOpen := by
  intro z s' hpath hs' hopen
  rcases hs.call with ⟨rfl, rfl, rfl⟩ | ⟨rfl, -, -⟩
  · have := asked_of_open hs' hopen
    rw [isAsked, hpath, List.nil_append] at hasked
    exact absurd (hasked.symm.trans this) (by decide)
  · rw [hb.all rfl o List.mem_cons_self] at hasked
    cases hasked

/-- An object whose text is certain is no open table. -/
theorem Ends.not_open {s₁ : Place} (hends : Ends env s (o.path.drop h.length) s₁) :
    ∀ z s', o.path = h ++ z ++ [.inst] → s' ∈ places (follow env) s z → ¬s'.IsOpen := by
  intro z s' hpath hs' hopen
  obtain ⟨-, -, -, hlast⟩ := hends
  have hdrop : o.path.drop h.length = z ++ [.inst] := by rw [hpath, List.append_assoc, List.drop_left]
  rw [hdrop, List.getLast?_concat, List.length_append, List.length_singleton] at hlast
  obtain ⟨hlen, hne⟩ := hlast rfl
  have hahead := ahead_of_place hs'
  rcases hopen with hopen | hopen
  · have := congrArg List.length (hopen.symm.trans hahead)
    simp only [List.length_nil, List.length_drop] at this
    omega
  · apply hne
    rw [← List.take_append_drop z.length s.ahead, ← hahead, hopen, List.getLast?_concat]

section
variable (hdoc : DocumentOrder dm) (hb : Block env dm request frame h s D (o :: L) R) (hpre : h <+: o.path)

include hdoc hb hpre

/-- What is below the first object of a block, and what is not. -/
theorem Block.span : (L ++ R).takeWhile (below o) = L.takeWhile (below o) ∧
    (L ++ R).dropWhile (below o) = L.dropWhile (below o) ++ R ∧
    ∀ a ∈ L.dropWhile (below o) ++ R, ¬o.path <+: a.path := by
  have hR : ∀ a ∈ R.head?, below o a = false := by
    intro a ha
    apply eq_false_of_ne_true
    intro hbelow
    exact hb.after a ha (hpre.trans (below_iff.mp hbelow))
  obtain ⟨htake, hdrop⟩ := span_append (L := L) hR
  have hdoc' : DocumentOrder (o :: (L ++ R)) := by
    have := hb.split ▸ hdoc
    rw [List.append_assoc] at this
    exact this.of_append
  refine ⟨htake, hdrop, ?_⟩
  rw [← hdrop]
  exact hdoc'.2.1

/-- The objects of a block behind a table and what is below it. -/
theorem Block.rest : Block env dm request frame h s (D ++ o :: L.takeWhile (below o)) (L.dropWhile (below o)) R where
  split := by
    have hL : L.takeWhile (below o) ++ L.dropWhile (below o) = L := List.takeWhile_append_dropWhile
    rw [hb.split]
    conv_lhs => rw [← hL]
    simp only [List.append_assoc, List.cons_append]
  inside a ha := hb.inside a (List.mem_cons_of_mem o (List.dropWhile_subset _ ha))
  all hrec a ha := hb.all hrec a (List.mem_cons_of_mem o (List.dropWhile_subset _ ha))
  closed a ha hasked z hz s' hs' hopen := by
    have haL : a ∈ L := List.dropWhile_subset _ ha
    have hnot := (hb.span hdoc hpre).2.2 a (List.mem_append_left R ha)
    obtain ⟨T, hT, hpath⟩ := hb.closed a (List.mem_cons_of_mem o haL) hasked z hz s' hs' hopen
    have hTa : T.path <+: a.path := by
      obtain ⟨x, hx⟩ := (hb.inside a (List.mem_cons_of_mem o haL) hasked).path
      rw [← hx, List.drop_left] at hz
      rw [hpath, ← hx, List.append_assoc]
      exact List.prefix_append_right_inj h |>.mpr hz
    refine ⟨T, ?_, hpath⟩
    rcases List.mem_cons.mp hT with rfl | hTL
    · exact absurd hTa hnot
    · rw [← List.takeWhile_append_dropWhile (p := below o) (l := L), List.mem_append] at hTL
      refine hTL.resolve_left fun htake => ?_
      exact hnot ((below_iff.mp (List.mem_takeWhile_imp htake)).trans hTa)
  after := hb.after
  ends := hb.ends

/-- The block of the call for an instance of a table. -/
theorem Block.nested (hreg : Regular env dm request) (hasked : isAsked env request o = true) {s' : Place}
    (hplace : s' ∈ places (follow env) (start request) o.path) (hahead : s'.ahead = []) :
    Block env dm request ⟨pathText o.path, true⟩ o.path s' (D ++ [o]) (L.takeWhile (below o)) (L.dropWhile (below o) ++ R) := by
  have hbelow : ∀ a ∈ L.takeWhile (below o), a ∈ L ∧ o.path <+: a.path := fun a ha =>
    ⟨List.takeWhile_subset _ ha, below_iff.mp (List.mem_takeWhile_imp ha)⟩
  have hall : ∀ a ∈ L.takeWhile (below o), isAsked env request a = true := fun a ha =>
    asked_of_below hasked (hbelow a ha).2
  have hsplit : dm = D ++ o :: (L ++ R) := by rw [hb.split]; simp
  obtain ⟨htake, -, hnot⟩ := hb.span hdoc hpre
  have hfirst : ∀ a ∈ L, ¬a.path <+: o.path := by
    have hdoc' : DocumentOrder (o :: (L ++ R)) := (hsplit ▸ hdoc).of_append
    exact fun a ha => hdoc'.1 a (List.mem_append_left R ha)
  refine ⟨?_, ?_, fun _ => hall, ?_, ?_, fun h => by cases h⟩
  · have hL : L.takeWhile (below o) ++ L.dropWhile (below o) = L := List.takeWhile_append_dropWhile
    rw [hsplit]
    conv_lhs => rw [← hL]
    simp only [List.append_assoc, List.cons_append, List.nil_append]
  · intro a ha _
    refine ⟨(hbelow a ha).2, ?_, ?_⟩
    · intro heq
      exact hfirst a (hbelow a ha).1 (heq ▸ List.prefix_refl _)
    · rw [hahead]
      exact asked_nil _
  · intro a ha hask z hz s'' hs'' hopen
    have hmem : a ∈ dm := by
      rw [hsplit]
      exact List.mem_append_right D (List.mem_cons_of_mem o (List.mem_append_left R (hbelow a ha).1))
    have hz' : o.path ++ z ++ [.inst] <+: a.path := by
      obtain ⟨x, hx⟩ := (hbelow a ha).2
      rw [← hx, List.drop_left] at hz
      rw [← hx, List.append_assoc]
      exact List.prefix_append_right_inj o.path |>.mpr hz
    obtain ⟨T, hT, hTpath, -⟩ := hreg.tables a hmem hask (o.path ++ z) hz' s'' (mem_places_append hplace hs'') hopen
    refine ⟨T, ?_, hTpath⟩
    rw [← htake]
    refine DocumentOrder.mem_below (hsplit ▸ hdoc) (hsplit ▸ hT) ?_ ?_
    · rw [hTpath, List.append_assoc]
      exact List.prefix_append _ _
    · rintro rfl
      have := congrArg List.length hTpath
      simp at this
  · intro a ha
    exact hnot a (List.mem_of_head? ha)

end

end

end Tr69HostIf.Waldb
