import Tr69HostIf.Waldb.Misses

/-!
# When the lookup finds a concrete name

`lookup_complete` : for a parameter of the data model and numbers for its placeholders, the lookup finds the
concrete name in every data model that has the parameter exactly when `Met` holds. A digit in the name of an
object in front of a placeholder takes the place of the instance number unless it happens to be a segment of
its own, a path that begins with a placeholder depends on a byte in front of the string, and a third
placeholder is never replaced.
-/

namespace Tr69HostIf.Waldb
open Store

/-- The data model that has one parameter. -/
def Param.model (P : Param) : DataModel :=
  [{ path := P.path, path_ne_nil := P.path_ne_nil
     params := [{ base := P.leaf, access := none, bsUpdate := none, syntaxNodes := [] }]
     distinct := by simp
     fits := fun p hp => by
      rw [List.mem_singleton] at hp
      rw [hp]
      exact P.fits }]

theorem Param.in_model (P : Param) : P.In P.model :=
  ⟨_, List.mem_singleton_self _, rfl, _, List.mem_singleton_self _, rfl⟩

theorem Param.names_model (P : Param) : ∀ c ∈ names P.model, c = P.text := by
  intro c hc
  rw [mem_names] at hc
  obtain ⟨o, ho, p, hp, rfl⟩ := hc
  rw [Param.model, List.mem_singleton] at ho
  subst ho
  rw [List.mem_singleton] at hp
  subst hp
  rfl

/-- Bytes that are no dots. -/
def noDots : Stray := ⟨'\x00', '\x00'⟩

theorem getLast?_of_own {x y : Text} (h : Own noDots.paramName x y) : x ≠ [] ∧ x.getLast? = some '.' := by
  cases hx : x.getLast? with
  | none =>
      have := h.2
      rw [hx] at this
      exact absurd this (by decide)
  | some c =>
      have := h.2
      rw [hx] at this
      refine ⟨?_, by rw [← this]; rfl⟩
      rintro rfl
      cases hx

section
variable {dm : DataModel} {t₀ t₁ t₂ : Text} {N N₁ N₂ : Number}

/-- What a name with one placeholder needs to be found. -/
theorem miss_one (h₀ : '{' ∉ t₀) (h₁ : '{' ∉ t₁) (hn : (t₀ ++ (N.digits ++ t₁)).length < maxParameterLength)
    (hdm : ∀ c ∈ names dm, c = t₀ ++ (instanceText ++ t₁))
    (h : Found (getParamInfoFromDataModel noDots dm (t₀ ++ (N.digits ++ t₁)))) :
    t₀ ≠ [] ∧ (Free Char.isDigit t₀ ∨
      OneOwn t₀ ∧ (t₀ ++ (N.digits ++ t₁)).length + 2 < maxParameterLength ∨
      OwnThenOne t₀ ∧ N.digits.length = 1) := by
  have hself : t₀ ++ (N.digits ++ t₁) ∉ names dm := by
    intro hmem
    have := brace_mem t₀ t₁
    rw [← hdm _ hmem] at this
    simp [h₀, h₁, brace_not_mem_digits N] at this
  obtain ⟨x, a, d, y, hs⟩ := exists_split (not_free_number N t₀ t₁)
  by_cases ho : Own noDots.paramName x y
  · rw [found_own hn hs ho] at h
    obtain ⟨hfit, h⟩ := h.resolve_left hself
    obtain ⟨hx, hdot⟩ := getLast?_of_own ho
    have hlen := hs.length
    have hnext := own_one h₀ h₁ hs hdot ho.1 hdm (found_next hs hfit h)
    refine ⟨?_, ?_⟩
    · -- the placeholder is not the beginning of the name
      rintro rfl
      rw [List.nil_append] at hs
      obtain ⟨b, N', hN, hb⟩ := N.exists_cons
      rw [hN] at hs
      exact hx (first_unique hs.free free_nil hs.head hb hs.eq.symm).1
    · rcases hnext with hf | ⟨ho, hd⟩ | ht
      · exact Or.inl hf
      · refine Or.inr (Or.inl ⟨ho, ?_⟩)
        rw [hd, List.length_nil] at hlen
        rw [List.length_append, List.length_append] at hfit
        have hi : instanceText.length = 3 := rfl
        omega
      · exact Or.inr (Or.inr ht)
  · rw [found_other hn hs ho] at h
    exact absurd (h.resolve_left hself) (miss_other (by decide) h₀ h₁ hn hs hdm)

/-- What a name with two placeholders needs to be found. -/
theorem miss_two (h₀ : '{' ∉ t₀) (h₁ : '{' ∉ t₁) (h₂ : '{' ∉ t₂) (hhead : t₁.head? = some '.')
    (hn : (t₀ ++ (N₁.digits ++ (t₁ ++ (N₂.digits ++ t₂)))).length < maxParameterLength)
    (hdm : ∀ c ∈ names dm, c = t₀ ++ (instanceText ++ (t₁ ++ (instanceText ++ t₂))))
    (h : Found (getParamInfoFromDataModel noDots dm (t₀ ++ (N₁.digits ++ (t₁ ++ (N₂.digits ++ t₂)))))) :
    t₀ ≠ [] ∧ Free Char.isDigit t₀ ∧
      (Free Char.isDigit t₁ ∧
          (t₀ ++ (N₁.digits ++ (t₁ ++ (N₂.digits ++ t₂)))).length + 3 < maxParameterLength + N₁.digits.length ∨
        OneInName t₁ ∧ N₂.digits.length = 1) := by
  have hbn : '{' ∉ t₀ ++ (N₁.digits ++ (t₁ ++ (N₂.digits ++ t₂))) := by
    simp [h₀, h₁, h₂, brace_not_mem_digits]
  have htwo : ∀ c ∈ names dm, 2 ≤ c.count '{' := by
    intro c hc
    rw [hdm c hc]
    simp only [List.count_append, count_instanceText]
    omega
  have hself : t₀ ++ (N₁.digits ++ (t₁ ++ (N₂.digits ++ t₂))) ∉ names dm := by
    intro hmem
    have := htwo _ hmem
    rw [count_plain hbn] at this
    omega
  obtain ⟨x, a, d, y, hs⟩ := exists_split (not_free_number N₁ t₀ _)
  have hlen := hs.length
  by_cases ho : Own noDots.paramName x y
  · rw [found_own hn hs ho] at h
    obtain ⟨hfit, h⟩ := h.resolve_left hself
    obtain ⟨hx, hdot⟩ := getLast?_of_own ho
    obtain ⟨hf₀, hN₁, hrest⟩ := own_two h₀ h₁ h₂ hhead hs hdm (found_next hs hfit h)
    refine ⟨?_, hf₀, ?_⟩
    · rintro rfl
      rw [List.nil_append, hN₁] at hs
      exact hx (first_unique hs.free free_nil hs.head hs.head hs.eq.symm).1
    · rcases hrest with hf₁ | ht
      · refine Or.inl ⟨hf₁, ?_⟩
        rw [hN₁, List.length_cons]
        rw [List.length_append, List.length_append] at hfit
        have hi : instanceText.length = 3 := rfl
        rw [hN₁] at hlen
        omega
      · exact Or.inr ht
  · rw [found_other hn hs ho] at h
    obtain ⟨hbx, hba, hbd, hby⟩ := brace_not_mem_split hs hbn
    have hsp : (d ++ y).length < maxParameterLength := by
      rw [List.length_append]
      omega
    obtain ⟨c, hc, hle⟩ := count_split hbx hba (by rw [List.take_left]) hs.take_succ hsp
      (h.resolve_left hself)
    have := htwo c hc
    rw [List.count_append, count_plain hbd, count_plain hby] at hle
    omega

end

/-! ## Names and their placeholders -/

theorem brace_not_mem_name (n : Name) : '{' ∉ n.chars :=
  brace_not_mem fun c hc => by simp [pieceChar, n.ok c hc]

theorem count_pathText (path : List Segment) : (pathText path).count '{' = placeholders path := by
  induction path with
  | nil => rfl
  | cons s path ih =>
      have hcons : pathText (s :: path) = s.text ++ '.' :: pathText path := by simp [pathText]
      rw [hcons, List.count_append, List.count_cons_of_ne (by decide), ih]
      cases s with
      | name n => rw [Segment.text, count_plain (brace_not_mem_name n), Nat.zero_add, placeholders]
      | inst => rw [Segment.text, count_instanceText, Nat.add_comm, placeholders]

theorem Param.count_text (P : Param) : P.text.count '{' = placeholders P.path := by
  rw [Param.text, List.count_append, count_pathText, count_plain (brace_not_mem_name P.leaf), Nat.add_zero]

theorem brace_not_mem_fillPath {path : List Segment} {numbers : List Number}
    (h : numbers.length = placeholders path) : '{' ∉ fillPath path numbers := by
  induction path generalizing numbers with
  | nil => exact List.not_mem_nil
  | cons s path ih =>
      cases s with
      | name n => simp [fillPath, brace_not_mem_name n, ih h]
      | inst =>
          cases numbers with
          | nil => simp [placeholders] at h
          | cons N numbers => simp [fillPath, brace_not_mem_digits N, ih (Nat.succ.inj h)]

theorem Param.brace_not_mem_fill {P : Param} {numbers : List Number} (h : numbers.length = placeholders P.path) :
    '{' ∉ P.fill numbers := by
  simp [Param.fill, brace_not_mem_fillPath h, brace_not_mem_name]

/-- A name of the data model is found as it is. -/
theorem found_self {stray : Stray} {dm : DataModel} {t : Text} (ht : t.length < maxParameterLength)
    (hdm : t ∈ names dm) : Found (getParamInfoFromDataModel stray dm t) := by
  by_cases hfree : Free Char.isDigit t
  · exact (found_free ht hfree).mpr hdm
  · obtain ⟨x, a, d, y, hs⟩ := exists_split hfree
    by_cases ho : Own stray.paramName x y
    · exact (found_own ht hs ho).mpr (Or.inl hdm)
    · exact (found_other ht hs ho).mpr (Or.inl hdm)

/-! ## By the number of placeholders -/

/-- The text is found in every data model that has the parameter. -/
def Param.AlwaysFound (P : Param) (t : Text) : Prop :=
  ∀ dm : DataModel, P.In dm → ∀ stray : Stray, Found (getParamInfoFromDataModel stray dm t)

section
variable {P : Param} {t₀ t₁ t₂ : Text}

theorem alwaysFound_none (heq : P.fill [] = P.text) : P.AlwaysFound (P.fill []) := by
  intro dm hdm stray
  rw [heq]
  exact found_self P.fits hdm.mem_names

theorem alwaysFound_one {N : Number} (htext : P.text = t₀ ++ (instanceText ++ t₁)) (hb₀ : '{' ∉ t₀) (hb₁ : '{' ∉ t₁)
    (hhead : t₀.head? ≠ some '.') (hlast : t₀ = [] ∨ t₀.getLast? = some '.') (h₁ : t₁.head? = some '.')
    (hn : (t₀ ++ (N.digits ++ t₁)).length < maxParameterLength) :
    P.AlwaysFound (t₀ ++ (N.digits ++ t₁)) ↔
      t₀ ≠ [] ∧ (Free Char.isDigit t₀ ∨ OneOwn t₀ ∧ (t₀ ++ (N.digits ++ t₁)).length + 2 < maxParameterLength ∨
        OwnThenOne t₀ ∧ N.digits.length = 1) := by
  have hfit : P.text.length < maxParameterLength := P.fits
  have hnames := P.names_model
  rw [htext] at hfit hnames
  constructor
  · intro h
    exact miss_one hb₀ hb₁ hn hnames (h P.model P.in_model noDots)
  · rintro ⟨hne, hcase⟩ dm hdm stray
    have hmem := hdm.mem_names
    rw [htext] at hmem
    have hdot := hlast.resolve_left hne
    rcases hcase with hfree | ⟨ho, hlen⟩ | ⟨ho, hN⟩
    · exact found_one_free hn hfree hdot h₁ hfit hmem
    · exact found_one_own hlen ho hhead hdot h₁ hfit hmem
    · exact found_one_third hn ho hN hhead hdot hfit hmem

theorem alwaysFound_two {N₁ N₂ : Number} (htext : P.text = t₀ ++ (instanceText ++ (t₁ ++ (instanceText ++ t₂))))
    (hb₀ : '{' ∉ t₀) (hb₁ : '{' ∉ t₁) (hb₂ : '{' ∉ t₂) (hlast : t₀ = [] ∨ t₀.getLast? = some '.')
    (h₁ : t₁.head? = some '.') (hlast₁ : t₁.getLast? = some '.') (h₂ : t₂.head? = some '.')
    (hn : (t₀ ++ (N₁.digits ++ (t₁ ++ (N₂.digits ++ t₂)))).length < maxParameterLength) :
    P.AlwaysFound (t₀ ++ (N₁.digits ++ (t₁ ++ (N₂.digits ++ t₂)))) ↔
      t₀ ≠ [] ∧ Free Char.isDigit t₀ ∧
        (Free Char.isDigit t₁ ∧
            (t₀ ++ (N₁.digits ++ (t₁ ++ (N₂.digits ++ t₂)))).length + 3 < maxParameterLength + N₁.digits.length ∨
          OneInName t₁ ∧ N₂.digits.length = 1) := by
  have hfit : P.text.length < maxParameterLength := P.fits
  have hnames := P.names_model
  rw [htext] at hfit hnames
  constructor
  · intro h
    exact miss_two hb₀ hb₁ hb₂ h₁ hn hnames (h P.model P.in_model noDots)
  · rintro ⟨hne, hfree, hcase⟩ dm hdm stray
    have hmem := hdm.mem_names
    rw [htext] at hmem
    have hdot := hlast.resolve_left hne
    rcases hcase with ⟨hfree₁, hlen⟩ | ⟨hone, hN₂⟩
    · refine found_two_free hn hfree hdot hfree₁ h₁ hlast₁ h₂ ?_ hfit hmem
      simp only [List.length_append] at hlen ⊢
      have hi : instanceText.length = 3 := rfl
      omega
    · exact found_two_third hn hfree hdot hone hN₂ h₁ hlast₁ hfit hmem

/-- The names tried have at most two placeholders. -/
theorem not_alwaysFound_many {numbers : List Number} (hlen : numbers.length = placeholders P.path)
    (hn : (P.fill numbers).length < maxParameterLength) (h : 3 ≤ placeholders P.path) :
    ¬P.AlwaysFound (P.fill numbers) := by
  intro hfound
  obtain ⟨c, hc, hle⟩ := count_found hn (Param.brace_not_mem_fill hlen) (hfound P.model P.in_model noDots)
  rw [P.names_model c hc, P.count_text] at hle
  omega

end

/-- **The lookup finds a concrete name in every data model that has its parameter exactly when `Met` holds.** -/
theorem lookup_complete (P : Param) (numbers : List Number) (hlen : numbers.length = placeholders P.path)
    (hn : (P.fill numbers).length < maxParameterLength) :
    (∀ dm : DataModel, P.In dm → ∀ stray : Stray, ∃ info,
      getParamInfoFromDataModel stray dm (P.fill numbers) = .ok (some info)) ↔ Met P numbers := by
  show P.AlwaysFound (P.fill numbers) ↔ Met P numbers
  obtain ⟨hc₀, hcs⟩ := pieces_chars P.path fun c hc => show pieceChar c = true by simp [pieceChar, P.leaf.ok c hc]
  have hshape := @pieces_shape P.path P.leaf.chars
  have hhead := pieces_head P.path P.leaf
  have htext : P.text = _ := text_pieces P.path P.leaf.chars
  have hfill : P.fill numbers = _ := fill_pieces P.path P.leaf.chars hlen
  have hlen' := length_pieces P.path P.leaf.chars
  rw [← hlen] at hlen'
  unfold Met
  generalize pieces P.path P.leaf.chars = p at hc₀ hcs hshape hhead htext hfill hlen' ⊢
  obtain ⟨t₀, ts⟩ := p
  have hb₀ := brace_not_mem hc₀
  have hbs : ∀ t ∈ ts, '{' ∉ t := fun t ht => brace_not_mem (hcs t ht)
  rcases ts with _ | ⟨t₁, _ | ⟨t₂, _ | ⟨t₃, ts⟩⟩⟩
  · obtain rfl := List.length_eq_zero_iff.mp hlen'.symm
    simp only [iff_true]
    refine alwaysFound_none ?_
    rw [hfill, htext]
    simp
  · obtain ⟨N, rfl⟩ := List.length_eq_one_iff.mp hlen'.symm
    have hfill' : P.fill [N] = t₀ ++ (N.digits ++ t₁) := by
      rw [hfill]
      simp
    have htext' : P.text = t₀ ++ (instanceText ++ t₁) := by
      rw [htext]
      simp
    obtain ⟨hlast, h₁, -⟩ := hshape rfl
    rw [hfill'] at hn ⊢
    exact alwaysFound_one htext' hb₀ (hbs t₁ (by simp)) hhead hlast h₁ hn
  · obtain ⟨N₁, N₂, rfl⟩ := List.length_eq_two.mp hlen'.symm
    have hfill' : P.fill [N₁, N₂] = t₀ ++ (N₁.digits ++ (t₁ ++ (N₂.digits ++ t₂))) := by
      rw [hfill]
      simp
    have htext' : P.text = t₀ ++ (instanceText ++ (t₁ ++ (instanceText ++ t₂))) := by
      rw [htext]
      simp
    obtain ⟨hlast, h₁, hnext⟩ := hshape rfl
    obtain ⟨hlast₁, h₂⟩ := hnext t₂ [] rfl
    rw [hfill'] at hn ⊢
    exact alwaysFound_two htext' hb₀ (hbs t₁ (by simp)) (hbs t₂ (by simp)) hlast h₁ hlast₁ h₂ hn
  · have hthree : 3 ≤ placeholders P.path := by
      rw [← hlen, ← hlen']
      simp
    simp only [not_alwaysFound_many hlen hn hthree]

/-- `Device.Ethernet.Interface.{i}.Enable`. -/
def ethernetEnable : Param where
  path := ethernetPath
  path_ne_nil := ethernetPath_ne_nil
  leaf := enable
  fits := by decide

/-- Instance `12`. -/
def twelve : Number := ⟨"12".toList, by decide, List.all_eq_true.mp rfl⟩

theorem lookup_complete_ethernet :
    ethernetEnable.fill [twelve] = "Device.Ethernet.Interface.12.Enable".toList ∧
      ∃ info, getParamInfoFromDataModel noDots ethernetEnable.model (ethernetEnable.fill [twelve]) = .ok (some info) := by
  have hmet : Met ethernetEnable [twelve] := by
    refine ⟨by decide, Or.inl ?_⟩
    decide
  exact ⟨by decide, (lookup_complete ethernetEnable [twelve] rfl (by decide)).mpr hmet ethernetEnable.model
    ethernetEnable.in_model noDots⟩

/-- `Device.DHCPv4.Client.{i}.Enable`. -/
def dhcpEnable : Param where
  path := [device, .name (.ofLiteral "DHCPv4" rfl), .name (.ofLiteral "Client" rfl), .inst]
  path_ne_nil := by simp
  leaf := enable
  fits := by decide

/-- The digit of `DHCPv4` is taken for an instance number, and three characters behind it are skipped. -/
theorem dhcp_client_not_found :
    dhcpEnable.fill [twelve] = "Device.DHCPv4.Client.12.Enable".toList ∧ dhcpEnable.In dhcpEnable.model ∧
      getParamInfoFromDataModel noDots dhcpEnable.model (dhcpEnable.fill [twelve]) = .ok none :=
  ⟨by decide, dhcpEnable.in_model, rfl⟩

end Tr69HostIf.Waldb
