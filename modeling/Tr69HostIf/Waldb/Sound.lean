import Tr69HostIf.Waldb.Complete
import Tr69HostIf.Waldb.Instances

/-!
# Whose attributes a lookup returns

* `Belongs dm n info` : the record is that of a parameter of which `n` is an instance;
* `Sound` : every answer to a lookup belongs to the name;
* `Misread` : the lookup comes to a name of the data model that the request is no instance of;
* `sound_iff` : a lookup is sound exactly if the name is not misread.
-/

namespace Tr69HostIf.Waldb
open Store

/-- The record is that of a parameter of the data model, and `n` is an instance of the parameter. -/
def Belongs (dm : DataModel) (n : Text) (info : DataModelParam) : Prop :=
  ∃ o ∈ dm, ∃ p ∈ o.params, info = paramInfo (pathText o.path ++ p.base.chars) p ∧
    InstanceOf n (pathText o.path ++ p.base.chars)

/-- An answer, if there is one, belongs to the name. -/
def SoundAnswer (dm : DataModel) (n : Text) (r : Except Fault (Option DataModelParam)) : Prop :=
  ∀ info, r = .ok (some info) → Belongs dm n info

/-- The lookup of a name that begins with `x` and the run `a :: d` comes to another parameter: the run is a segment
of its own. -/
def MisreadOwn (stray : Stray) (dm : DataModel) (x : Text) (a : Char) (d y : Text) : Prop :=
  (x ++ (instanceText ++ y)).length < maxParameterLength ∧ x ++ (instanceText ++ y) ∉ names dm ∧
    ∃ q dot, rewriteSplit stray.splitParam (instanceText ++ y) = some (q, dot) ∧
      ((q.length < maxParameterLength ∧ x ++ a :: q.drop 3 ∈ names dm ∧ ¬(d = [] ∧ dot = true)) ∨
        (x ++ a :: q.drop 3 ∉ names dm ∧ x ++ q ∈ names dm ∧ dot = false))

/-- The same for a run that is not a segment of its own. -/
def MisreadOther (stray : Stray) (dm : DataModel) (x : Text) (a : Char) (sp : Text) : Prop :=
  (rewriteSplit stray.splitParam sp = none ∧ x ++ sp ∈ names dm) ∨
    ∃ q dot, rewriteSplit stray.splitParam sp = some (q, dot) ∧
      ((q.length < maxParameterLength ∧ x ++ a :: q.drop 3 ∈ names dm) ∨
        (x ++ a :: q.drop 3 ∉ names dm ∧ x ++ q ∈ names dm ∧ q.head? ≠ some '{'))

/-- The lookup of `n` comes to a parameter of which `n` is no instance. -/
def Misread (stray : Stray) (dm : DataModel) (n : Text) : Prop :=
  n ∉ names dm ∧ ∃ x a d y, Split Char.isDigit n x a d y ∧
    (Own stray.paramName x y ∧ MisreadOwn stray dm x a d y ∨
      ¬Own stray.paramName x y ∧ MisreadOther stray dm x a (d ++ y))

/-! ## One name -/

section
variable {dm : DataModel} {n t : Text}

theorem objectName_paramInfo (t : Text) (p : DmParameter) : (paramInfo t p).objectName = t := by
  unfold paramInfo
  refine List.foldlRecOn (motive := fun info : DataModelParam => info.objectName = t) p.syntaxNodes _ rfl fun info hinfo node _ => ?_
  cases node with
  | default value => exact hinfo
  | dataType value => exact hinfo

theorem length_lt_of_mem_names {c : Text} (h : c ∈ names dm) : c.length < maxParameterLength := by
  obtain ⟨o, -, p, hp, rfl⟩ := mem_names.mp h
  exact o.fits p hp

theorem belongs_iff {info : DataModelParam} {o : DmObject} {p : DmParameter} (ho : o ∈ dm) (hp : p ∈ o.params)
    (hinfo : info = paramInfo (pathText o.path ++ p.base.chars) p) :
    Belongs dm n info ↔ InstanceOf n (pathText o.path ++ p.base.chars) := by
  constructor
  · rintro ⟨o', -, p', -, h, hinst⟩
    rw [hinfo] at h
    have := congrArg DataModelParam.objectName h
    rw [objectName_paramInfo, objectName_paramInfo] at this
    rwa [this]
  · exact fun hinst => ⟨o, ho, p, hp, hinfo, hinst⟩

theorem checkforParameterNameMatch_info {o : DmObject} {ps : List DmParameter} (hps : ∀ p ∈ ps, p ∈ o.params)
    {info : DataModelParam} (h : checkforParameterNameMatch (pathText o.path) t ps = .ok (some info)) :
    ∃ p ∈ o.params, pathText o.path ++ p.base.chars = t ∧ info = paramInfo t p := by
  induction ps with
  | nil => cases h
  | cons p ps ih =>
      have hp := o.fits p (hps p List.mem_cons_self)
      have htake : (pathText o.path).take (maxParameterLength - 1) = pathText o.path := by
        rw [List.length_append] at hp
        exact List.take_of_length_le (by omega)
      rw [checkforParameterNameMatch, htake, strncat_fits hp] at h
      change (if pathText o.path ++ p.base.chars = t then _ else _) = _ at h
      split at h
      · next heq => exact ⟨p, hps p List.mem_cons_self, heq, by cases h; rfl⟩
      · exact ih (fun q hq => hps q (List.mem_cons_of_mem p hq)) h

theorem checkObjects_info {o : Text} {info : DataModelParam} (h : checkObjects o t dm = .ok (some info)) :
    ∃ obj ∈ dm, ∃ p ∈ obj.params, pathText obj.path ++ p.base.chars = t ∧ info = paramInfo t p := by
  induction dm with
  | nil => cases h
  | cons obj dm ih =>
      have later : checkObjects o t dm = .ok (some info) →
          ∃ obj' ∈ obj :: dm, ∃ p ∈ obj'.params, pathText obj'.path ++ p.base.chars = t ∧ info = paramInfo t p := by
        intro h
        obtain ⟨obj', hobj, hrest⟩ := ih h
        exact ⟨obj', List.mem_cons_of_mem obj hobj, hrest⟩
      rw [checkObjects] at h
      split at h
      · next hpath =>
        rw [← hpath] at h
        cases hm : checkforParameterNameMatch (pathText obj.path) t obj.params with
        | error e =>
            rw [hm] at h
            cases h
        | ok r =>
            rw [hm] at h
            cases r with
            | none =>
                rw [hpath] at h
                exact later h
            | some info' =>
                cases h
                exact ⟨obj, List.mem_cons_self, checkforParameterNameMatch_info (fun p hp => hp) hm⟩
      · exact later h

/-- The record of a match is that of a parameter of this name. -/
theorem checkforParameterMatch_info {info : DataModelParam} (h : checkforParameterMatch dm t = .ok (some info)) :
    ∃ o ∈ dm, ∃ p ∈ o.params, pathText o.path ++ p.base.chars = t ∧ info = paramInfo t p := by
  unfold checkforParameterMatch at h
  cases ho : paramObject t with
  | error e =>
      rw [ho] at h
      cases h
  | ok o =>
      rw [ho] at h
      exact checkObjects_info h

theorem soundAnswer_none : SoundAnswer dm n (.ok none) := fun _ h => by cases h

theorem soundAnswer_error (e : Fault) : SoundAnswer dm n (.error e) := fun _ h => by cases h

theorem soundAnswer_tryName (ht : t.length < maxParameterLength) (rest : Except Fault (Option DataModelParam)) :
    SoundAnswer dm n (tryName dm t rest) ↔
      (t ∈ names dm → InstanceOf n t) ∧ (t ∉ names dm → SoundAnswer dm n rest) := by
  unfold tryName
  rcases checkforParameterMatch_spec dm ht with ⟨hmem, info, hinfo⟩ | ⟨hmem, hnone⟩
  · obtain ⟨o, ho, p, hp, rfl, hrec⟩ := checkforParameterMatch_info hinfo
    rw [hinfo]
    constructor
    · intro h
      exact ⟨fun _ => (belongs_iff ho hp hrec).mp (h info rfl), fun hn => absurd hmem hn⟩
    · intro h info' heq
      cases heq
      exact (belongs_iff ho hp hrec).mpr (h.1 hmem)
  · rw [hnone]
    exact ⟨fun h => ⟨fun hm => absurd hm hmem, fun _ => h⟩, fun h => h.2 hmem⟩

theorem soundAnswer_ite {c : Prop} [Decidable c] {e : Fault} {r : Except Fault (Option DataModelParam)} :
    SoundAnswer dm n (if c then r else .error e) ↔ (c → SoundAnswer dm n r) := by
  split
  · next h => exact ⟨fun hr _ => hr, fun hr => hr h⟩
  · next h => exact iff_of_true (soundAnswer_error e) fun hc => absurd hc h

theorem soundAnswer_strncat {dst src : Text} (h : src.length < maxParameterLength)
    (f : Text → Except Fault (Option DataModelParam)) :
    SoundAnswer dm n ((strncat dst src).bind f) ↔
      ((dst ++ src).length < maxParameterLength → SoundAnswer dm n (f (dst ++ src))) := by
  have heq : (strncat dst src).bind f =
      if (dst ++ src).length < maxParameterLength then f (dst ++ src) else .error .overflow := by
    rw [strncat_eq h]
    split <;> rfl
  rw [heq, soundAnswer_ite]

end

/-! ## The names tried -/

section
variable {stray : Stray} {dm : DataModel} {n m x new sp q : Text} {a : Char} {dot : Bool}

theorem soundAnswer_tryLast (hnew : new.take x.length = x) (hsp : sp.length < maxParameterLength) :
    SoundAnswer dm m (tryLast dm (x.length + 1) new sp) ↔ (x ++ sp ∈ names dm → InstanceOf m (x ++ sp)) := by
  have hcheck : ∀ t : Text, checkforParameterMatch dm t = tryName dm t (.ok none) := fun t => by
    unfold tryName
    cases checkforParameterMatch dm t with
    | error e => rfl
    | ok r => cases r <;> rfl
  unfold tryLast
  rw [Nat.add_sub_cancel, hnew, soundAnswer_strncat hsp]
  constructor
  · intro h hmem
    have hfit := length_lt_of_mem_names hmem
    have := h hfit
    rw [hcheck, soundAnswer_tryName hfit] at this
    exact this.1 hmem
  · intro h hfit
    rw [hcheck, soundAnswer_tryName hfit]
    exact ⟨h, fun _ => soundAnswer_none⟩

/-- The two names tried once `splitParam` has been rewritten to `q`. -/
theorem soundAnswer_rewritten (hq : q ≠ []) :
    (q.length < maxParameterLength → SoundAnswer dm m
        ((strncat (x ++ [a]) (q.drop 3)).bind fun name => tryName dm name (tryLast dm (x.length + 1) name q))) ↔
      (q.length < maxParameterLength → x ++ a :: q.drop 3 ∈ names dm → InstanceOf m (x ++ a :: q.drop 3)) ∧
        (x ++ a :: q.drop 3 ∉ names dm → x ++ q ∈ names dm → InstanceOf m (x ++ q)) := by
  have hpos := List.length_pos_iff.mpr hq
  have hstep : q.length < maxParameterLength → (SoundAnswer dm m
      ((strncat (x ++ [a]) (q.drop 3)).bind fun name => tryName dm name (tryLast dm (x.length + 1) name q)) ↔
      ((x ++ a :: q.drop 3).length < maxParameterLength →
        (x ++ a :: q.drop 3 ∈ names dm → InstanceOf m (x ++ a :: q.drop 3)) ∧
        (x ++ a :: q.drop 3 ∉ names dm → x ++ q ∈ names dm → InstanceOf m (x ++ q)))) := by
    intro hlen
    have hdrop : (q.drop 3).length < maxParameterLength := by
      rw [List.length_drop]
      omega
    rw [soundAnswer_strncat hdrop, List.append_assoc, List.singleton_append]
    refine imp_congr_right fun hfit => ?_
    rw [soundAnswer_tryName hfit, soundAnswer_tryLast (by rw [List.take_left]) hlen]
  -- both names fit if they are in the data model
  constructor
  · intro h
    constructor
    · intro hlen hmem
      exact ((hstep hlen).mp (h hlen) (length_lt_of_mem_names hmem)).1 hmem
    · intro hnot hmem
      have hfit := length_lt_of_mem_names hmem
      rw [List.length_append] at hfit
      have hlen : q.length < maxParameterLength := by omega
      refine ((hstep hlen).mp (h hlen) ?_).2 hnot hmem
      rw [List.length_append, List.length_cons, List.length_drop]
      omega
  · intro h hlen
    exact (hstep hlen).mpr fun _ => ⟨h.1 hlen, h.2⟩

theorem soundAnswer_trySplit_none (h : rewriteSplit stray.splitParam sp = none) (hnew : new.take x.length = x)
    (hfirst : n.take (x.length + 1) = x ++ [a]) (hsp : sp.length < maxParameterLength) :
    SoundAnswer dm m (trySplit stray dm n (x.length + 1) new sp) ↔ (x ++ sp ∈ names dm → InstanceOf m (x ++ sp)) := by
  obtain ⟨new', hnew', heq⟩ := trySplit_same dm n new (x.length + 1) h
  rw [heq]
  refine soundAnswer_tryLast ?_ hsp
  rcases hnew' with rfl | rfl
  · exact hnew
  · rw [hfirst, List.take_left]

theorem soundAnswer_trySplit_some (h : rewriteSplit stray.splitParam sp = some (q, dot))
    (hfirst : n.take (x.length + 1) = x ++ [a]) (hsp : sp.length < maxParameterLength) :
    SoundAnswer dm m (trySplit stray dm n (x.length + 1) new sp) ↔
      (q.length < maxParameterLength → x ++ a :: q.drop 3 ∈ names dm → InstanceOf m (x ++ a :: q.drop 3)) ∧
        (x ++ a :: q.drop 3 ∉ names dm → x ++ q ∈ names dm → InstanceOf m (x ++ q)) := by
  rw [trySplit_rewritten h hsp, soundAnswer_ite, hfirst, soundAnswer_rewritten (rewriteSplit_ne_nil h)]

end

/-! ## The branches -/

/-- Every answer to a lookup of `n` belongs to `n`. -/
def Sound (stray : Stray) (dm : DataModel) (n : Text) : Prop := SoundAnswer dm n (getParamInfoFromDataModel stray dm n)

section
variable {stray : Stray} {dm : DataModel} {n x d y : Text} {a : Char}

theorem sound_free (h : Free Char.isDigit n) : Sound stray dm n := by
  intro info hinfo
  rw [lookup_free h] at hinfo
  obtain ⟨o, ho, p, hp, rfl, hrec⟩ := checkforParameterMatch_info hinfo
  exact (belongs_iff ho hp hrec).mpr (.refl _)

theorem sound_own_iff (hn : n.length < maxParameterLength) (h : Split Char.isDigit n x a d y)
    (ho : Own stray.paramName x y) :
    Sound stray dm n ↔ (n ∉ names dm → (x ++ (instanceText ++ y)).length < maxParameterLength →
      (x ++ (instanceText ++ y) ∈ names dm → InstanceOf n (x ++ (instanceText ++ y))) ∧
        (x ++ (instanceText ++ y) ∉ names dm →
          SoundAnswer dm n (trySplit stray dm n (x.length + 1) (x ++ (instanceText ++ y)) (instanceText ++ y)))) := by
  rw [Sound, lookup_own hn h ho, soundAnswer_tryName hn, soundAnswer_ite, and_iff_right fun _ => InstanceOf.refl n]
  exact imp_congr_right fun _ => imp_congr_right fun hfit => soundAnswer_tryName hfit _

theorem sound_other_iff (hn : n.length < maxParameterLength) (h : Split Char.isDigit n x a d y)
    (ho : ¬Own stray.paramName x y) :
    Sound stray dm n ↔ (n ∉ names dm →
      SoundAnswer dm n (trySplit stray dm n (x.length + 1) (x ++ [a]) (d ++ y))) := by
  rw [Sound, lookup_other hn h ho, soundAnswer_tryName hn, and_iff_right fun _ => InstanceOf.refl n]

end

/-! ## A first digit inside a name -/

section
variable {stray : Stray} {dm : DataModel} {n x x₂ d₂ y₂ x₃ y₃ sp : Text} {a a₂ b : Char}

/-- A name with a character less is not an instance. -/
theorem not_instanceOf_shorter {c : Text} (hb : '{' ∉ n) (hc : '{' ∉ c) (hmem : c ∈ names dm) (hlen : c.length < n.length) :
    ¬InstanceOf n c := by
  rw [instanceOf_plain hc hmem hb]
  rintro rfl
  omega

/-- Three characters skipped behind the first digit: no instance. -/
theorem not_instanceOf_skip {z y : Text} (hb : '{' ∉ n) (hbx : '{' ∉ x) (hba : a ≠ '{') (hbz : '{' ∉ z) (hby : '{' ∉ y)
    (hmem : x ++ a :: (z ++ (instanceText ++ y)).drop 3 ∈ names dm) (hlen : x.length + 1 + z.length + y.length < n.length)
    (hne : ∀ N : Number, 3 ≤ z.length → n ≠ x ++ a :: (z.drop 3 ++ (N.digits ++ y))) :
    ¬InstanceOf n (x ++ a :: (z ++ (instanceText ++ y)).drop 3) := by
  have hi : instanceText.length = 3 := rfl
  by_cases hz : 3 ≤ z.length
  · have hcut : x ++ a :: (z ++ (instanceText ++ y)).drop 3 = (x ++ a :: z.drop 3) ++ (instanceText ++ y) := by
      rw [List.drop_append_of_le_length hz]
      simp
    have hbu : '{' ∉ x ++ a :: z.drop 3 := by
      simp only [List.mem_append, List.mem_cons, not_or]
      exact ⟨hbx, Ne.symm hba, fun h => hbz (List.mem_of_mem_drop h)⟩
    rw [hcut] at hmem ⊢
    rw [instanceOf_one hbu hby hmem hb]
    rintro ⟨N, hN⟩
    exact hne N hz (by rw [hN]; simp)
  · apply not_instanceOf_shorter hb ?_ hmem
    · simp only [List.length_append, List.length_cons, List.length_drop, hi]
      omega
    · simp only [List.mem_append, List.mem_cons, not_or]
      exact ⟨hbx, Ne.symm hba, brace_not_mem_drop hby (by omega)⟩

theorem head_ne_brace {z r : Text} (hz : z ≠ []) (hbz : '{' ∉ z) : (z ++ r).head? ≠ some '{' := by
  rw [List.head?_append_of_ne_nil _ hz]
  exact fun h => hbz (List.mem_of_head? h)

/-- Behind a digit inside a name, a second run that is a segment of its own. -/
theorem other_own_instance (hb : '{' ∉ n) (hn : n = x ++ a :: sp) (ha : a.isDigit = true)
    (h₂ : Split Char.isDigit sp x₂ a₂ d₂ y₂) :
    (x ++ a :: (x₂ ++ (instanceText ++ y₂)).drop 3 ∈ names dm →
        ¬InstanceOf n (x ++ a :: (x₂ ++ (instanceText ++ y₂)).drop 3)) ∧
      (x ++ (x₂ ++ (instanceText ++ y₂)) ∈ names dm →
        (InstanceOf n (x ++ (x₂ ++ (instanceText ++ y₂))) ↔ (x₂ ++ (instanceText ++ y₂)).head? = some '{')) := by
  have hbn := hb
  rw [hn, h₂.eq] at hbn
  simp only [List.mem_append, List.mem_cons, not_or] at hbn
  obtain ⟨hbx, hba, hbx₂, -, -, hby₂⟩ := hbn
  have hlen : n.length = x.length + 1 + x₂.length + 1 + d₂.length + y₂.length := by
    rw [hn, List.length_append, List.length_cons, h₂.length]
    omega
  constructor
  · intro hmem
    apply not_instanceOf_skip hb hbx (Ne.symm hba) hbx₂ hby₂ hmem (by omega)
    intro N hz hN
    obtain ⟨b, N', hNb, hdig⟩ := N.exists_cons
    rw [hn, h₂.eq, hNb] at hN
    have : x₂ ++ a₂ :: (d₂ ++ y₂) = x₂.drop 3 ++ b :: (N' ++ y₂) := by simpa using hN
    exact drop_three_ne h₂.free h₂.head hdig hz this
  · intro hmem
    rw [← List.append_assoc] at hmem ⊢
    rw [instanceOf_one (by simp [hbx, hbx₂]) hby₂ hmem hb, hn, h₂.eq]
    cases x₂ with
    | nil =>
        have hdigits : ∀ c ∈ a :: a₂ :: d₂, c.isDigit = true := by
          simp only [List.forall_mem_cons]
          exact ⟨ha, h₂.head, h₂.run⟩
        exact iff_of_true ⟨⟨a :: a₂ :: d₂, List.cons_ne_nil _ _, hdigits⟩, by simp⟩ rfl
    | cons c x₂ =>
        refine iff_of_false ?_ (head_ne_brace (List.cons_ne_nil _ _) hbx₂)
        intro ⟨N, hN⟩
        rw [List.append_assoc] at hN
        exact digit_ne (free_cons.mp h₂.free).1 ha (List.cons.inj (List.append_cancel_left hN)).1

/-- Behind a digit inside a name, a third digit. -/
theorem other_third_instance (hb : '{' ∉ n) (hn : n = x ++ a :: sp) (ha : a.isDigit = true)
    (h₂ : Split Char.isDigit sp x₂ a₂ d₂ y₂) (h₃ : d₂ ++ y₂ = x₃ ++ b :: y₃) (hx₃ : Free Char.isDigit x₃) :
    (x ++ a :: (dotted (x₂ ++ a₂ :: x₃) ++ (instanceText ++ y₃)).drop 3 ∈ names dm →
        ¬InstanceOf n (x ++ a :: (dotted (x₂ ++ a₂ :: x₃) ++ (instanceText ++ y₃)).drop 3)) ∧
      (x ++ (dotted (x₂ ++ a₂ :: x₃) ++ (instanceText ++ y₃)) ∈ names dm →
        (InstanceOf n (x ++ (dotted (x₂ ++ a₂ :: x₃) ++ (instanceText ++ y₃))) ↔
          (dotted (x₂ ++ a₂ :: x₃) ++ (instanceText ++ y₃)).head? = some '{')) := by
  have hn' : n = x ++ a :: (x₂ ++ a₂ :: (x₃ ++ b :: y₃)) := by rw [hn, h₂.eq, h₃]
  have hbn := hb
  rw [hn'] at hbn
  simp only [List.mem_append, List.mem_cons, not_or] at hbn
  obtain ⟨hbx, hba, hbx₂, hba₂, hbx₃, -, hby₃⟩ := hbn
  have hbz : '{' ∉ dotted (x₂ ++ a₂ :: x₃) := brace_not_mem_dotted (by simp [hbx₂, hba₂, hbx₃])
  have hzlen := length_dotted (t := x₂ ++ a₂ :: x₃) (by simp)
  have hbu : '{' ∉ x ++ dotted (x₂ ++ a₂ :: x₃) := by simp [hbx, hbz]
  have hlen : n.length = x.length + 1 + (x₂ ++ a₂ :: x₃).length + 1 + y₃.length := by
    rw [hn']
    simp only [List.length_append, List.length_cons]
    omega
  constructor
  · intro hmem
    apply not_instanceOf_skip hb hbx (Ne.symm hba) hbz hby₃ hmem (by omega)
    intro N hz hN
    have hskip : '{' ∉ x ++ a :: (dotted (x₂ ++ a₂ :: x₃)).drop 3 := by
      simp only [List.mem_append, List.mem_cons, not_or]
      exact ⟨hbx, hba, fun h => hbz (List.mem_of_mem_drop h)⟩
    have hN' : x ++ a :: (x₂ ++ a₂ :: (x₃ ++ b :: y₃)) =
        (x ++ a :: (dotted (x₂ ++ a₂ :: x₃)).drop 3) ++ (N.digits ++ y₃) := by
      rw [← hn', hN]
      simp
    refine (other_third_ne ha h₂.head h₂.free hx₃ hbx (Ne.symm hba) hbz hby₃ hskip hN').1 ?_
    rw [List.drop_append_of_le_length hz]
    simp
  · intro hmem
    refine iff_of_false ?_ (head_ne_brace ?_ hbz)
    · rw [← List.append_assoc] at hmem ⊢
      rw [instanceOf_one hbu hby₃ hmem hb]
      intro ⟨N, hN⟩
      rw [hn'] at hN
      refine (other_third_ne ha h₂.head h₂.free hx₃ hbx (Ne.symm hba) hbz hby₃ hbu hN).2 ?_
      rw [List.append_assoc]
    · rw [← List.length_pos_iff, hzlen, List.length_append, List.length_cons]
      omega

/-- **A digit inside a name: the lookup is sound if it comes to no other name.** -/
theorem sound_other (hb : '{' ∉ n) (hlen : n.length < maxParameterLength) {d y : Text} (hs : Split Char.isDigit n x a d y)
    (ho : ¬Own stray.paramName x y) :
    Sound stray dm n ↔ (n ∉ names dm → ¬MisreadOther stray dm x a (d ++ y)) := by
  have hsp : (d ++ y).length < maxParameterLength := by
    have := hs.length
    rw [List.length_append]
    omega
  have hn : n = x ++ a :: (d ++ y) := hs.eq
  rw [sound_other_iff hlen hs ho]
  refine imp_congr_right fun _ => ?_
  unfold MisreadOther
  cases hr : rewriteSplit stray.splitParam (d ++ y) with
  | none =>
      rw [soundAnswer_trySplit_none hr List.take_left hs.take_succ hsp]
      have hbsp : '{' ∉ x ++ (d ++ y) := fun h => hb (by rw [hn]; simp only [List.mem_append, List.mem_cons] at h ⊢; tauto)
      have hne : x ++ (d ++ y) ∈ names dm → ¬InstanceOf n (x ++ (d ++ y)) := fun hmem =>
        not_instanceOf_shorter hb hbsp hmem (by rw [hn]; simp only [List.length_append, List.length_cons]; omega)
      simp only [true_and, reduceCtorEq, false_and, exists_false, or_false]
      exact ⟨fun h hmem => hne hmem (h hmem), fun h hmem => absurd hmem h⟩
  | some r =>
      obtain ⟨q, dot⟩ := r
      have hinst : (x ++ a :: q.drop 3 ∈ names dm → ¬InstanceOf n (x ++ a :: q.drop 3)) ∧
          (x ++ q ∈ names dm → (InstanceOf n (x ++ q) ↔ q.head? = some '{')) := by
        obtain ⟨x₂, a₂, d₂, y₂, h₂, ⟨-, rfl, -⟩ | ⟨-, x₃, b, y₃, h₃, hx₃, -, rfl, -⟩⟩ := rewriteSplit_cases hr
        · exact other_own_instance hb hn hs.head h₂
        · exact other_third_instance hb hn hs.head h₂ h₃ hx₃
      rw [soundAnswer_trySplit_some hr hs.take_succ hsp]
      simp only [reduceCtorEq, false_and, false_or, Option.some.injEq, Prod.mk.injEq]
      constructor
      · rintro ⟨h₁, h₂⟩ ⟨q', dot', ⟨rfl, rfl⟩, ⟨hfit, hmem⟩ | ⟨hnot, hmem, hhead⟩⟩
        · exact hinst.1 hmem (h₁ hfit hmem)
        · exact hhead ((hinst.2 hmem).mp (h₂ hnot hmem))
      · intro h
        constructor
        · intro hfit hmem
          exact absurd ⟨q, dot, ⟨rfl, rfl⟩, .inl ⟨hfit, hmem⟩⟩ h
        · intro hnot hmem
          rw [hinst.2 hmem]
          by_contra hhead
          exact h ⟨q, dot, ⟨rfl, rfl⟩, .inr ⟨hnot, hmem, hhead⟩⟩

end

/-! ## A first number that is a segment of its own -/

section
variable {stray : Stray} {dm : DataModel} {n x d y w d₂ y₂ x₃ y₃ : Text} {a a₂ b : Char}

/-- The run as a number. -/
def runNumber (a : Char) (d : Text) (ha : a.isDigit = true) (hd : ∀ c ∈ d, c.isDigit = true) : Number where
  digits := a :: d
  ne_nil := List.cons_ne_nil a d
  ok := List.forall_mem_cons.mpr ⟨ha, hd⟩

/-- What stands before a dot in digits and a text that begins with a dot. -/
theorem run_dot_unique {d' r r' : Text} (hd : ∀ c ∈ d, c.isDigit = true) (hd' : ∀ c ∈ d', c.isDigit = true)
    (h : d ++ '.' :: r = d' ++ '.' :: r') : d = d' ∧ r = r' := by
  have hhead : ∀ t : Text, ∀ c ∈ ('.' :: t).head?, c.isDigit = false := fun t => head_not_digit rfl
  obtain ⟨h₁, h₂⟩ := run_unique hd hd' (hhead r) (hhead r') h
  exact ⟨h₁, (List.cons.inj h₂).2⟩

theorem dotted_self {z : Text} (hz : z ≠ []) : dotted z = z ↔ z.getLast? = some '.' := by
  obtain ⟨u, c, rfl⟩ := (List.eq_nil_or_concat z).resolve_left hz
  rw [List.concat_eq_append, dotted, List.dropLast_concat, List.getLast?_concat]
  simp [eq_comm]

/-- A second number that is a segment of its own as well. -/
theorem own_own_instance (hb : '{' ∉ n) (hs : Split Char.isDigit n x a d y) (hy : y.head? = some '.')
    (h₂ : Split Char.isDigit y w a₂ d₂ y₂) :
    (x ++ a :: (w ++ (instanceText ++ y₂)) ∈ names dm →
        (InstanceOf n (x ++ a :: (w ++ (instanceText ++ y₂))) ↔ d = [])) ∧
      (x ++ (instanceText ++ (w ++ (instanceText ++ y₂))) ∈ names dm →
        InstanceOf n (x ++ (instanceText ++ (w ++ (instanceText ++ y₂))))) := by
  obtain ⟨hbx, hba, -, hby⟩ := brace_not_mem_split hs hb
  obtain ⟨hbw, -, -, hby₂⟩ := brace_not_mem_split h₂ hby
  have hn : n = x ++ a :: (d ++ (w ++ a₂ :: (d₂ ++ y₂))) := by rw [hs.eq, h₂.eq]
  rw [h₂.eq] at hy
  obtain ⟨w', rfl⟩ := cons_of_head hy h₂.head
  have hN₂ : (runNumber a₂ d₂ h₂.head h₂.run).digits = a₂ :: d₂ := rfl
  constructor
  · intro hmem
    have hcut : x ++ a :: ('.' :: w' ++ (instanceText ++ y₂)) = (x ++ a :: '.' :: w') ++ (instanceText ++ y₂) := by simp
    have hbu : '{' ∉ x ++ a :: '.' :: w' := by
      simp only [List.mem_append, List.mem_cons, not_or] at hbw ⊢
      exact ⟨hbx, Ne.symm hba, hbw⟩
    rw [hcut] at hmem ⊢
    rw [instanceOf_one hbu hby₂ hmem hb, hn]
    constructor
    · rintro ⟨N, hN⟩
      have hcancel : d ++ '.' :: (w' ++ a₂ :: (d₂ ++ y₂)) = '.' :: (w' ++ (N.digits ++ y₂)) := by simpa using hN
      exact run_nil_of_dot hs.run hcancel
    · rintro rfl
      exact ⟨runNumber a₂ d₂ h₂.head h₂.run, by simp [hN₂]⟩
  · intro hmem
    rw [instanceOf_two hbx hbw hby₂ hmem hb, hn]
    exact ⟨runNumber a d hs.head hs.run, runNumber a₂ d₂ h₂.head h₂.run, by simp [runNumber]⟩

/-- A third digit behind a second one that is not a segment of its own, with the first digit kept. -/
theorem own_third_kept (hb : '{' ∉ n) (hs : Split Char.isDigit n x a d y) {z : Text} (hz : z ≠ [])
    (hyz : y = '.' :: z ++ b :: y₃) (hdigit : b.isDigit = true)
    (hmem : x ++ a :: (dotted ('.' :: z) ++ (instanceText ++ y₃)) ∈ names dm) :
    InstanceOf n (x ++ a :: (dotted ('.' :: z) ++ (instanceText ++ y₃))) ↔ d = [] ∧ dotted ('.' :: z) = '.' :: z := by
  obtain ⟨hbx, hba, -, hby⟩ := brace_not_mem_split hs hb
  rw [hyz, List.mem_append, List.mem_cons (a := '{') (b := b), not_or, not_or] at hby
  obtain ⟨hbz, -, hby₃⟩ := hby
  have hbu : '{' ∉ x ++ a :: dotted ('.' :: z) := by
    rw [List.mem_append, List.mem_cons, not_or, not_or]
    exact ⟨hbx, Ne.symm hba, brace_not_mem_dotted hbz⟩
  have hcut : x ++ a :: (dotted ('.' :: z) ++ (instanceText ++ y₃)) = (x ++ a :: dotted ('.' :: z)) ++ (instanceText ++ y₃) := by
    simp
  rw [hcut] at hmem ⊢
  rw [instanceOf_one hbu hby₃ hmem hb, hs.eq, hyz]
  constructor
  · rintro ⟨N, hN⟩
    have hN' : d ++ ('.' :: z ++ b :: y₃) = dotted ('.' :: z) ++ (N.digits ++ y₃) := by simpa using hN
    have hd : d = [] := by
      rw [dotted_cons '.' hz] at hN'
      exact run_nil_of_dot hs.run hN'
    rw [hd, List.nil_append] at hN'
    exact ⟨hd, (dotted_eq (List.cons_ne_nil '.' z) hN').1⟩
  · rintro ⟨rfl, hdot⟩
    refine ⟨runNumber b [] hdigit (fun c hc => by cases hc), ?_⟩
    rw [hdot]
    simp [runNumber]

/-- The same with both numbers replaced. -/
theorem own_third_replaced (hb : '{' ∉ n) (hs : Split Char.isDigit n x a d y) {z : Text} (hz : z ≠ [])
    (hyz : y = '.' :: z ++ b :: y₃) (hdigit : b.isDigit = true)
    (hmem : x ++ (instanceText ++ (dotted ('.' :: z) ++ (instanceText ++ y₃))) ∈ names dm) :
    InstanceOf n (x ++ (instanceText ++ (dotted ('.' :: z) ++ (instanceText ++ y₃)))) ↔ dotted ('.' :: z) = '.' :: z := by
  obtain ⟨hbx, -, -, hby⟩ := brace_not_mem_split hs hb
  rw [hyz, List.mem_append, List.mem_cons (a := '{') (b := b), not_or, not_or] at hby
  obtain ⟨hbz, -, hby₃⟩ := hby
  rw [instanceOf_two hbx (brace_not_mem_dotted hbz) hby₃ hmem hb, hs.eq, hyz]
  constructor
  · rintro ⟨N₁, N₂, hN⟩
    have hN' := List.append_cancel_left hN
    rw [dotted_cons '.' hz] at hN'
    have hrun : ∀ c ∈ a :: d, c.isDigit = true := List.forall_mem_cons.mpr ⟨hs.head, hs.run⟩
    have hrest : z ++ b :: y₃ = dotted z ++ (N₂.digits ++ y₃) := (run_dot_unique hrun N₁.ok hN').2
    rw [dotted_cons '.' hz, (dotted_eq hz hrest).1]
  · intro hdot
    refine ⟨runNumber a d hs.head hs.run, runNumber b [] hdigit (fun c hc => by cases hc), ?_⟩
    rw [hdot]
    simp [runNumber]

/-- A third digit behind a second one that is not a segment of its own. -/
theorem own_third_instance (hb : '{' ∉ n) (hs : Split Char.isDigit n x a d y) (hy : y.head? = some '.')
    (h₂ : Split Char.isDigit y w a₂ d₂ y₂) (h₃ : d₂ ++ y₂ = x₃ ++ b :: y₃) (hdigit : b.isDigit = true) :
    (x ++ a :: (dotted (w ++ a₂ :: x₃) ++ (instanceText ++ y₃)) ∈ names dm →
        (InstanceOf n (x ++ a :: (dotted (w ++ a₂ :: x₃) ++ (instanceText ++ y₃))) ↔
          d = [] ∧ (w ++ a₂ :: x₃).getLast? = some '.')) ∧
      (x ++ (instanceText ++ (dotted (w ++ a₂ :: x₃) ++ (instanceText ++ y₃))) ∈ names dm →
        (InstanceOf n (x ++ (instanceText ++ (dotted (w ++ a₂ :: x₃) ++ (instanceText ++ y₃)))) ↔
          (w ++ a₂ :: x₃).getLast? = some '.')) := by
  have hyw : y = w ++ a₂ :: (x₃ ++ b :: y₃) := by rw [h₂.eq, h₃]
  rw [hyw] at hy
  obtain ⟨w', rfl⟩ := cons_of_head hy h₂.head
  have hyz : y = '.' :: (w' ++ a₂ :: x₃) ++ b :: y₃ := by
    rw [hyw]
    simp
  have hz : w' ++ a₂ :: x₃ ≠ [] := by simp
  rw [← dotted_self (by simp), List.cons_append]
  exact ⟨own_third_kept hb hs hz hyz hdigit, own_third_replaced hb hs hz hyz hdigit⟩

/-- The names tried behind a number are instances if nothing but digits was replaced. -/
theorem own_instance (hb : '{' ∉ n) (hs : Split Char.isDigit n x a d y) (hy : y.head? = some '.') {q : Text} {dot : Bool}
    (hr : rewriteSplit stray.splitParam (instanceText ++ y) = some (q, dot)) :
    (x ++ a :: q.drop 3 ∈ names dm → (InstanceOf n (x ++ a :: q.drop 3) ↔ d = [] ∧ dot = true)) ∧
      (x ++ q ∈ names dm → (InstanceOf n (x ++ q) ↔ dot = true)) := by
  have hdrop : ∀ z : Text, (instanceText ++ z).drop 3 = z := fun z => rfl
  obtain ⟨w, a₂, d₂, y₂, h₂, ⟨rfl, rfl⟩ | ⟨-, x₃, b, y₃, h₃, -, hdig, rfl, rfl⟩⟩ := rewriteSplit_instanceText hr
  · rw [hdrop, and_iff_left rfl]
    exact ⟨(own_own_instance hb hs hy h₂).1, fun hmem => iff_of_true ((own_own_instance hb hs hy h₂).2 hmem) rfl⟩
  · rw [hdrop, decide_eq_true_iff]
    exact own_third_instance hb hs hy h₂ h₃ hdig

/-- **A first number that is a segment of its own: the lookup is sound if it comes to no other name.** -/
theorem sound_own (hb : '{' ∉ n) (hlen : n.length < maxParameterLength) (hs : Split Char.isDigit n x a d y)
    (ho : Own stray.paramName x y) : Sound stray dm n ↔ (n ∉ names dm → ¬MisreadOwn stray dm x a d y) := by
  obtain ⟨hbx, -, -, hby⟩ := brace_not_mem_split hs hb
  have hfirst : x ++ (instanceText ++ y) ∈ names dm → InstanceOf n (x ++ (instanceText ++ y)) := fun hmem => by
    rw [instanceOf_one hbx hby hmem hb, hs.eq]
    exact ⟨runNumber a d hs.head hs.run, by simp [runNumber]⟩
  rw [sound_own_iff hlen hs ho]
  refine imp_congr_right fun _ => ?_
  unfold MisreadOwn
  rw [not_and]
  refine imp_congr_right fun hfit => ?_
  rw [and_iff_right hfirst, not_and]
  refine imp_congr_right fun hnot => ?_
  have hsp : (instanceText ++ y).length < maxParameterLength := by
    rw [List.length_append] at hfit
    omega
  cases hr : rewriteSplit stray.splitParam (instanceText ++ y) with
  | none =>
      rw [soundAnswer_trySplit_none hr List.take_left hs.take_succ hsp]
      simp only [reduceCtorEq, false_and, exists_false, not_false_eq_true, iff_true]
      exact fun hmem => absurd hmem hnot
  | some r =>
      obtain ⟨q, dot⟩ := r
      have h₁ : x ++ a :: q.drop 3 ∈ names dm → _ := (own_instance hb hs ho.1 hr).1
      have h₂ : x ++ q ∈ names dm → _ := (own_instance hb hs ho.1 hr).2
      rw [soundAnswer_trySplit_some hr hs.take_succ hsp]
      simp only [Option.some.injEq, Prod.mk.injEq]
      constructor
      · rintro ⟨hs₁, hs₂⟩ ⟨q', dot', ⟨rfl, rfl⟩, ⟨hq, hmem, hne⟩ | ⟨hnot₁, hmem, hdot⟩⟩
        · exact hne ((h₁ hmem).mp (hs₁ hq hmem))
        · rw [(h₂ hmem).mp (hs₂ hnot₁ hmem)] at hdot
          cases hdot
      · intro h
        constructor
        · intro hq hmem
          rw [h₁ hmem]
          by_contra hne
          exact h ⟨q, dot, ⟨rfl, rfl⟩, .inl ⟨hq, hmem, hne⟩⟩
        · intro hnot₁ hmem
          rw [h₂ hmem]
          by_contra hdot
          exact h ⟨q, dot, ⟨rfl, rfl⟩, .inr ⟨hnot₁, hmem, eq_false_of_ne_true hdot⟩⟩

end

theorem misread_iff {stray : Stray} {dm : DataModel} {n x d y : Text} {a : Char} (hs : Split Char.isDigit n x a d y) :
    Misread stray dm n ↔ n ∉ names dm ∧ (Own stray.paramName x y ∧ MisreadOwn stray dm x a d y ∨
      ¬Own stray.paramName x y ∧ MisreadOther stray dm x a (d ++ y)) := by
  refine and_congr_right fun _ => ⟨?_, fun h => ⟨x, a, d, y, hs, h⟩⟩
  rintro ⟨x', a', d', y', hs', h⟩
  obtain ⟨rfl, rfl, hrest⟩ := first_unique hs.free hs'.free hs.head hs'.head (hs.eq.symm.trans hs'.eq)
  obtain ⟨rfl, rfl⟩ := run_unique hs.run hs'.run hs.rest hs'.rest hrest
  exact h

/-- **A lookup is sound exactly if the name is not misread.** -/
theorem sound_iff (stray : Stray) (dm : DataModel) {n : Text} (hb : '{' ∉ n) (hlen : n.length < maxParameterLength) :
    Sound stray dm n ↔ ¬Misread stray dm n := by
  by_cases hfree : Free Char.isDigit n
  · refine iff_of_true (sound_free hfree) ?_
    rintro ⟨-, x, a, d, y, hs, -⟩
    have := hfree a (by rw [hs.eq]; simp)
    rw [hs.head] at this
    cases this
  obtain ⟨x, a, d, y, hs⟩ := exists_split hfree
  rw [misread_iff hs, not_and]
  by_cases ho : Own stray.paramName x y
  · rw [sound_own hb hlen hs ho]
    simp only [ho, true_and, not_true_eq_false, false_and, or_false]
  · rw [sound_other hb hlen hs ho]
    simp only [ho, false_and, not_false_eq_true, true_and, false_or]

/-- The first number of the name. -/
theorem split_ethernet : Split Char.isDigit "Device.Ethernet.Interface.12.Enable".toList
    "Device.Ethernet.Interface.".toList '1' "2".toList ".Enable".toList :=
  ⟨rfl, by decide, by decide, List.all_eq_true.mp (by decide), fun c hc => by
    obtain rfl : '.' = c := Option.some.inj hc
    rfl⟩

theorem lookup_sound_ethernet : Sound noDots ethernetEnable.model "Device.Ethernet.Interface.12.Enable".toList := by
  refine (sound_iff noDots ethernetEnable.model (by decide) (by decide)).mpr ?_
  rw [misread_iff split_ethernet]
  rintro ⟨-, ⟨-, -, hnot, -⟩ | ⟨hown, -⟩⟩
  · exact hnot ethernetEnable.in_model.mem_names
  · exact hown (by decide)

/-- `Device.Time.NTPServer2`. -/
def ntpServer2 : Param where
  path := [device, .name (.ofLiteral "Time" rfl)]
  path_ne_nil := by simp
  leaf := .ofLiteral "NTPServer2" rfl
  fits := by decide

/-- The first digit of `NTPServer12` is dropped. -/
theorem ntpServer12_misread : ¬Sound noDots ntpServer2.model "Device.Time.NTPServer12".toList := by
  intro h
  obtain ⟨o, ho, p, hp, -, hinst⟩ := h _ rfl
  rw [ntpServer2.names_model _ (mem_names.mpr ⟨o, ho, p, hp, rfl⟩)] at hinst
  have heq := (instanceOf_plain (by decide) ntpServer2.in_model.mem_names (by decide)).mp hinst
  revert heq
  decide

end Tr69HostIf.Waldb
