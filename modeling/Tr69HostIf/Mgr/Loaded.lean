import Tr69HostIf.Mgr.Config
import Mathlib.Data.List.Nodup

/-!
# What the manager table holds after loading

* `inserted b ls` : the pairs the loop stores, a line without a manager of its own under the manager of the
  last line that had one (`lastManager`);
* `Loaded` : every known line is in the table with its manager, no unknown line is, every stored prefix is
  looked up as itself;
* `Clean` : known prefixes are told apart by the table, an unknown line behind a known one hides behind a known
  prefix it is confused with, and the last line that hides behind a prefix follows that prefix' manager;
* `loaded_iff` : the table is `Loaded` exactly for `Clean` files.
-/

namespace Tr69HostIf.Mgr
open Store HashTable

section
variable (b : Build)

/-- The manager the line names. -/
def Line.known (l : Line) : Option ParamMgr := mgrOf b l.mgr

/-- The manager of the last line that names one. -/
def lastManager (ls : List Line) : Option ParamMgr := (ls.filterMap (Line.known b)).getLast?

theorem lastManager_concat (ls : List Line) (l : Line) :
    lastManager b (ls ++ [l]) = (l.known b).or (lastManager b ls) := by
  unfold lastManager
  rw [List.filterMap_append]
  cases h : l.known b with
  | none => simp [h]
  | some m => simp [h]

/-- The pairs stored while the loop runs through the lines, `m` being the manager of the lines before. -/
def inserted (m : Option ParamMgr) : List Line → List (Text × ParamMgr)
  | [] => []
  | l :: ls => (((l.known b).or m).map (l.param, ·)).toList ++ inserted ((l.known b).or m) ls

theorem lastManager_cons (l : Line) (ls : List Line) :
    lastManager b (l :: ls) = (lastManager b ls).or (l.known b) := by
  induction ls using List.reverseRecOn with
  | nil => 
      rw [show [l] = [] ++ [l] from rfl, lastManager_concat]
      simp [lastManager]
  | append_singleton ls k ih => rw [← List.cons_append, lastManager_concat, ih, lastManager_concat, Option.or_assoc]

theorem inserted_append (m : Option ParamMgr) (ls ls' : List Line) :
    inserted b m (ls ++ ls') = inserted b m ls ++ inserted b ((lastManager b ls).or m) ls' := by
  induction ls generalizing m with
  | nil => simp [inserted, lastManager]
  | cons l ls ih => rw [List.cons_append, inserted, inserted, ih, List.append_assoc, lastManager_cons, Option.or_assoc]

theorem foldl_loadLine {stray : Text → Text} (ls : List Line) (s : LoadState stray) :
    (ls.foldl (fun s l => loadLine b s l.param (some l.mgr)) s).table =
      s.table.insertAll (inserted b s.mgrName ls) := by
  induction ls generalizing s with
  | nil => rfl
  | cons l ls ih =>
      have hline : loadLine b s l.param (some l.mgr) =
          ⟨(l.known b).or s.mgrName, l.mgr,
            s.table.insertAll (((l.known b).or s.mgrName).map (l.param, ·)).toList⟩ := by
        simp only [loadLine, Option.map_some, Option.getD_some, l.param_word.cStr, l.mgr_word.cStr, Line.known]
        cases (mgrOf b l.mgr).or s.mgrName <;> rfl
      rw [List.foldl_cons, ih, hline, inserted]
      unfold insertAll
      rw [List.foldl_append]

/-- **What the loop stores.** -/
theorem config_eq_insertAll (stray : Text → Text) {ls : List Line} {t : Text} (h : Written ls t) :
    hostIf_initalize_ConfigManger b stray t = insertAll (inserted b none ls) HashTable.empty := by
  unfold hostIf_initalize_ConfigManger
  rw [loadLoop_written b h _ _ (Nat.lt_succ_of_le h.length_le), foldl_loadLine]

variable {b}

theorem lastManager_ne_none {ls : List Line} : lastManager b ls ≠ none ↔ ∃ l ∈ ls, l.known b ≠ none := by
  unfold lastManager
  rw [Ne, List.getLast?_eq_none_iff, List.filterMap_eq_nil_iff]
  push Not
  rfl

theorem exists_line_of_mem {m : Option ParamMgr} {ls : List Line} {e : Text × ParamMgr} (h : e ∈ inserted b m ls) :
    ∃ l ∈ ls, l.param = e.1 := by
  induction ls generalizing m with
  | nil => cases h
  | cons l ls ih =>
      rw [inserted, List.mem_append, Option.mem_toList, Option.map_eq_some_iff] at h
      rcases h with ⟨v, -, rfl⟩ | h
      · exact ⟨l, List.mem_cons_self, rfl⟩
      · obtain ⟨k, hk, hke⟩ := ih h
        exact ⟨k, List.mem_cons_of_mem l hk, hke⟩

theorem inserted_split (pre : List Line) (l : Line) (post : List Line) :
    inserted b none (pre ++ l :: post) = inserted b none pre ++
      (((lastManager b (pre ++ [l])).map (l.param, ·)).toList ++ inserted b (lastManager b (pre ++ [l])) post) := by
  rw [inserted_append, Option.or_none, inserted, lastManager_concat]

theorem exists_inserted_of_known {ls : List Line} {l : Line} (h : l ∈ ls) (hl : l.known b ≠ none) :
    ∃ v, (l.param, v) ∈ inserted b none ls := by
  obtain ⟨pre, post, rfl⟩ := List.append_of_mem h
  obtain ⟨m, hm⟩ := Option.ne_none_iff_exists'.mp hl
  refine ⟨m, ?_⟩
  rw [inserted_split, lastManager_concat, hm]
  simp

variable {stray : Text → Text}

/-- The first pair of a line of the file is its own. -/
theorem first_inserted {pre post : List Line} {l : Line}
    (hn : ((pre ++ l :: post).map Line.param).Nodup) :
    First (Confused stray) (inserted b none (pre ++ l :: post)) l.param ↔
      lastManager b (pre ++ [l]) ≠ none ∧ ∀ e ∈ inserted b none pre, ¬Confused stray e.1 l.param := by
  rw [List.map_append, List.map_cons, List.nodup_middle, List.nodup_cons, List.mem_append, not_or] at hn
  have hpre : ∀ e ∈ inserted b none pre, e.1 ≠ l.param := by
    intro e he heq
    obtain ⟨k, hk, hke⟩ := exists_line_of_mem he
    exact hn.1.1 (List.mem_map.mpr ⟨k, hk, hke.trans heq⟩)
  rw [inserted_split]
  cases hv : lastManager b (pre ++ [l]) with
  | none =>
      refine ⟨fun h => ?_, fun h => absurd rfl h.1⟩
      obtain ⟨v, hv⟩ := h.exists_mem
      rw [Option.map_none, Option.toList_none, List.nil_append, List.mem_append] at hv
      rcases hv with hv | hv
      · exact absurd rfl (hpre _ hv)
      · obtain ⟨k, hk, hke⟩ := exists_line_of_mem hv
        exact absurd (List.mem_map.mpr ⟨k, hk, hke⟩) hn.1.2
  | some v =>
      rw [Option.map_some, Option.toList_some, List.singleton_append]
      constructor
      · rintro ⟨x, u, y, h, hx⟩
        have hfree : Free (fun e : Text × ParamMgr => decide (e.1 = l.param)) (inserted b none pre) :=
          fun e he => decide_eq_false (hpre e he)
        have hfree' : Free (fun e : Text × ParamMgr => decide (e.1 = l.param)) x :=
          fun e he => decide_eq_false fun heq => hx e he (heq ▸ (confused_equivalence stray).refl _)
        have hx' := (first_unique hfree hfree' (decide_eq_true rfl) (decide_eq_true rfl) h).1
        exact ⟨by simp, hx' ▸ hx⟩
      · rintro ⟨-, h⟩
        exact ⟨inserted b none pre, v, _, rfl, h⟩

theorem lastManager_append (ls ls' : List Line) :
    lastManager b (ls ++ ls') = (lastManager b ls').or (lastManager b ls) := by
  induction ls' using List.reverseRecOn with
  | nil => simp [lastManager]
  | append_singleton ls' k ih => rw [← List.append_assoc, lastManager_concat, ih, lastManager_concat, Option.or_assoc]

theorem lastSame_inserted (m : ParamMgr) (ls : List Line) (k : Line) (p : Text) :
    lastSame (Confused stray) (inserted b (some m) (ls ++ [k])) p =
      if Confused stray k.param p then (lastManager b (ls ++ [k])).or (some m)
      else lastSame (Confused stray) (inserted b (some m) ls) p := by
  obtain ⟨v, hv⟩ : ∃ v, (lastManager b (ls ++ [k])).or (some m) = some v := by
    cases lastManager b (ls ++ [k]) with
    | none => exact ⟨m, rfl⟩
    | some v => exact ⟨v, rfl⟩
  have hk : inserted b ((lastManager b ls).or (some m)) [k] = [(k.param, v)] := by
    rw [inserted, ← Option.or_assoc, ← lastManager_concat, hv]
    rfl
  rw [inserted_append, hk, lastSame_concat, hv]

/-- The value of a known line is its manager's when the last line that is confused with it follows that manager. -/
theorem kept_iff {m : ParamMgr} {p : Text} {ls : List Line} :
    (lastSame (Confused stray) (inserted b (some m) ls) p).or (some m) = some m ↔
      ∀ mid k post, ls = mid ++ k :: post → Confused stray p k.param →
        (∀ j ∈ post, ¬Confused stray p j.param) → (lastManager b (mid ++ [k])).or (some m) = some m := by
  have hs := confused_equivalence stray
  induction ls using List.reverseRecOn with
  | nil => simp [lastSame, inserted]
  | append_singleton ls i ih =>
      rw [lastSame_inserted]
      by_cases hi : Confused stray i.param p
      · rw [if_pos hi, Option.or_assoc, Option.or_some]
        constructor
        · intro h mid k post heq hk hpost
          rcases List.eq_nil_or_concat post with rfl | ⟨post, q, rfl⟩
          · obtain ⟨rfl, hik⟩ := List.append_inj' heq rfl
            rwa [← hik]
          · rw [List.concat_eq_append, ← List.cons_append, ← List.append_assoc] at heq
            have hq := List.cons.inj (List.append_inj' heq rfl).2
            exact absurd (hs.symm hi) (hpost i (by simp [hq.1]))
        · intro h
          exact h ls i [] rfl (hs.symm hi) fun j hj => (by cases hj)
      · rw [if_neg hi]
        refine ih.trans ?_
        constructor
        · intro h mid k post heq hk hpost
          rcases List.eq_nil_or_concat post with rfl | ⟨post, q, rfl⟩
          · have hik := List.cons.inj (List.append_inj' heq rfl).2
            exact absurd (hs.symm hk) (hik.1 ▸ hi)
          · rw [List.concat_eq_append, ← List.cons_append, ← List.append_assoc] at heq
            apply h mid k post (List.append_inj' heq rfl).1 hk
            intro j hj
            exact hpost j (by simp [hj])
        · rintro h mid k post rfl hk hpost
          apply h mid k (post ++ [i]) (by simp) hk
          intro j hj
          rcases List.mem_append.mp hj with hj | hj
          · exact hpost j hj
          · rw [List.mem_singleton.mp hj]
            exact fun h => hi (hs.symm h)

end

/-! ## The file and the table -/

section
variable (b : Build) {stray : Text → Text} (ls : List Line)

/-- The table holds what the lines say. -/
structure Loaded (t : ParamMgrHash stray) : Prop where
  known : ∀ l ∈ ls, ∀ m, l.known b = some m → (l.param, m) ∈ t.entries
  unknown : ∀ l ∈ ls, l.known b = none → ∀ m, (l.param, m) ∉ t.entries
  own : ∀ e ∈ t.entries, t.lookup e.1 = some e.2

/-- The lines for which the loop does that. -/
structure Clean (stray : Text → Text) : Prop where
  apart : ∀ pre l post, ls = pre ++ l :: post → l.known b ≠ none →
    ∀ j ∈ pre, j.known b ≠ none → ¬Confused stray j.param l.param
  hidden : ∀ pre l post, ls = pre ++ l :: post → l.known b = none → (∃ j ∈ pre, j.known b ≠ none) →
    ∃ j ∈ pre, j.known b ≠ none ∧ Confused stray j.param l.param
  kept : ∀ pre l mid k post m, ls = pre ++ l :: (mid ++ k :: post) → l.known b = some m →
    Confused stray l.param k.param → (∀ j ∈ post, ¬Confused stray l.param j.param) →
      lastManager b (pre ++ l :: (mid ++ [k])) = some m

variable {b} {ls}

theorem known_mem_iff {pre post : List Line} {l : Line} {m : ParamMgr}
    (hn : ((pre ++ l :: post).map Line.param).Nodup) (hm : l.known b = some m) :
    (l.param, m) ∈ (insertAll (inserted b none (pre ++ l :: post)) (HashTable.empty : ParamMgrHash stray)).entries ↔
      (∀ e ∈ inserted b none pre, ¬Confused stray e.1 l.param) ∧
      ∀ mid k rest, post = mid ++ k :: rest → Confused stray l.param k.param →
        (∀ j ∈ rest, ¬Confused stray l.param j.param) →
          lastManager b (pre ++ l :: (mid ++ [k])) = some m := by
  have hl : lastManager b (pre ++ [l]) = some m := by rw [lastManager_concat, hm, Option.some_or]
  have hlast : ∀ ks, lastManager b (pre ++ l :: ks) = (lastManager b ks).or (some m) := by
    intro ks
    rw [List.append_cons, lastManager_append, hl]
  have hsplit : lastSame (Confused stray) (inserted b none (pre ++ l :: post)) l.param =
      (lastSame (Confused stray) (inserted b (some m) post) l.param).or (some m) := by
    rw [inserted_split, hl, ← List.append_assoc, lastSame_append, Option.map_some, Option.toList_some,
      lastSame_concat, if_pos ((confused_equivalence stray).refl _)]
  rw [mem_insertAll (confused_equivalence stray), first_inserted hn, hsplit, kept_iff, hl]
  simp only [hlast, ne_eq, reduceCtorEq, not_false_eq_true, true_and]

theorem unknown_mem_iff {pre post : List Line} {l : Line}
    (hn : ((pre ++ l :: post).map Line.param).Nodup) (hm : l.known b = none) :
    (∃ m, (l.param, m) ∈
        (insertAll (inserted b none (pre ++ l :: post)) (HashTable.empty : ParamMgrHash stray)).entries) ↔
      (∃ j ∈ pre, j.known b ≠ none) ∧ ∀ e ∈ inserted b none pre, ¬Confused stray e.1 l.param := by
  have hl : lastManager b (pre ++ [l]) = lastManager b pre := by rw [lastManager_concat, hm, Option.none_or]
  simp only [mem_insertAll (confused_equivalence stray), exists_and_left, first_inserted hn, hl, lastManager_ne_none]
  constructor
  · exact And.left
  · intro h
    refine ⟨h, Option.ne_none_iff_exists'.mp fun hnone => ?_⟩
    obtain ⟨v, hv⟩ := Option.ne_none_iff_exists'.mp (lastManager_ne_none.mpr h.1)
    apply lastSame_eq_none.mp hnone (l.param, v) _ ((confused_equivalence stray).refl _)
    rw [inserted_split, hl, hv]
    simp

/-- Behind a clean file's known lines every stored pair is confused with a known line. -/
theorem exists_known_of_inserted (pre : List Line)
    (hidden : ∀ xs l ys, pre = xs ++ l :: ys → l.known b = none → (∃ j ∈ xs, j.known b ≠ none) →
      ∃ j ∈ xs, j.known b ≠ none ∧ Confused stray j.param l.param) :
    ∀ e ∈ inserted b none pre, ∃ j ∈ pre, j.known b ≠ none ∧ Confused stray j.param e.1 := by
  induction pre using List.reverseRecOn with
  | nil => exact fun e he => (by cases he)
  | append_singleton pre l ih =>
      intro e he
      rw [inserted_split, List.mem_append] at he
      rcases he with he | he
      · have hpre := ih fun xs k ys h => hidden xs k (ys ++ [l]) (by rw [h]; simp)
        obtain ⟨j, hj, hk, hc⟩ := hpre e he
        exact ⟨j, List.mem_append_left _ hj, hk, hc⟩
      · rw [inserted, List.append_nil, Option.mem_toList, Option.map_eq_some_iff] at he
        obtain ⟨v, hv, rfl⟩ := he
        cases hl : l.known b with
        | some m =>
            exact ⟨l, by simp, by simp [hl], (confused_equivalence stray).refl _⟩
        | none =>
            rw [lastManager_concat, hl, Option.none_or] at hv
            have hsome := lastManager_ne_none.mp (by rw [hv]; simp : lastManager b pre ≠ none)
            obtain ⟨j, hj, hk, hc⟩ := hidden pre l [] rfl hl hsome
            exact ⟨j, List.mem_append_left _ hj, hk, hc⟩

theorem Loaded.clean (hn : (ls.map Line.param).Nodup)
    (h : Loaded b ls (insertAll (inserted b none ls) (HashTable.empty : ParamMgrHash stray))) : Clean b ls stray := by
  have hs := confused_equivalence stray
  have hmem : ∀ {pre l post}, ls = pre ++ l :: post → l ∈ ls := by
    rintro pre l post rfl
    simp
  have hfirst : ∀ pre l post, ls = pre ++ l :: post → l.known b ≠ none →
      ∀ e ∈ inserted b none pre, ¬Confused stray e.1 l.param := by
    rintro pre l post rfl hl
    obtain ⟨m, hm⟩ := Option.ne_none_iff_exists'.mp hl
    exact ((known_mem_iff hn hm).mp (h.known l (hmem rfl) m hm)).1
  -- an unknown line that is left out has an earlier stored line to hide behind; the first of these is known
  have hidden : ∀ n pre l post, pre.length ≤ n → ls = pre ++ l :: post → l.known b = none →
      (∃ j ∈ pre, j.known b ≠ none) → ∃ j ∈ pre, j.known b ≠ none ∧ Confused stray j.param l.param := by
    intro n
    induction n with
    | zero =>
        intro pre l post hlen _ _ hj
        rw [List.length_eq_zero_iff.mp (Nat.le_zero.mp hlen)] at hj
        obtain ⟨j, hj, -⟩ := hj
        cases hj
    | succ n ih =>
        rintro pre l post hlen rfl hl hj
        have hno : ¬∀ e ∈ inserted b none pre, ¬Confused stray e.1 l.param := by
          intro hall
          obtain ⟨m, hm⟩ := (unknown_mem_iff hn hl).mpr ⟨hj, hall⟩
          exact h.unknown l (hmem rfl) hl m hm
        push Not at hno
        obtain ⟨e, he, hc⟩ := hno
        have hpre : ∀ xs k ys, pre = xs ++ k :: ys → k.known b = none → (∃ j ∈ xs, j.known b ≠ none) →
            ∃ j ∈ xs, j.known b ≠ none ∧ Confused stray j.param k.param := by
          rintro xs k ys rfl
          apply ih xs k (ys ++ l :: post) _ (by simp)
          rw [List.length_append, List.length_cons] at hlen
          omega
        obtain ⟨j, hj, hk, hje⟩ := exists_known_of_inserted pre hpre e he
        exact ⟨j, hj, hk, hs.trans hje hc⟩
  refine ⟨?_, fun pre l post => hidden pre.length pre l post le_rfl, ?_⟩
  · intro pre l post heq hl j hj hk
    obtain ⟨v, hv⟩ := exists_inserted_of_known hj hk
    exact hfirst pre l post heq hl _ hv
  · rintro pre l mid k post m rfl hm
    exact ((known_mem_iff hn hm).mp (h.known l (hmem rfl) m hm)).2 mid k post rfl

theorem Clean.loaded (hn : (ls.map Line.param).Nodup) (h : Clean b ls stray) :
    Loaded b ls (insertAll (inserted b none ls) (HashTable.empty : ParamMgrHash stray)) := by
  have hs := confused_equivalence stray
  refine ⟨?_, ?_, fun e he => lookup_of_mem hs he⟩
  · intro l hl m hm
    obtain ⟨pre, post, rfl⟩ := List.append_of_mem hl
    refine (known_mem_iff hn hm).mpr ⟨?_, fun mid k rest heq => h.kept pre l mid k rest m (by rw [heq]) hm⟩
    intro e he hc
    have hpre : ∀ xs k ys, pre = xs ++ k :: ys → k.known b = none → (∃ j ∈ xs, j.known b ≠ none) →
        ∃ j ∈ xs, j.known b ≠ none ∧ Confused stray j.param k.param :=
      fun xs k ys heq => h.hidden xs k (ys ++ l :: post) (by rw [heq]; simp)
    obtain ⟨j, hj, hk, hje⟩ := exists_known_of_inserted pre hpre e he
    exact h.apart pre l post rfl (by simp [hm]) j hj hk (hs.trans hje hc)
  · intro l hl hm m hmem
    obtain ⟨pre, post, rfl⟩ := List.append_of_mem hl
    obtain ⟨hj, hno⟩ := (unknown_mem_iff hn hm).mp ⟨m, hmem⟩
    obtain ⟨j, hj, hk, hc⟩ := h.hidden pre l post rfl hm hj
    obtain ⟨v, hv⟩ := exists_inserted_of_known hj hk
    exact hno _ hv hc

/-- **The table holds what the file says exactly for clean files.** -/
theorem loaded_iff {t : Text} (hw : Written ls t) (hn : (ls.map Line.param).Nodup) :
    Loaded b ls (hostIf_initalize_ConfigManger b stray t) ↔ Clean b ls stray := by
  rw [config_eq_insertAll b stray hw]
  exact ⟨Loaded.clean hn, Clean.loaded hn⟩

end

/-- A line of the shipped file. -/
def timeLine : Line := ⟨"Device.Time".toList, "timeMgr".toList, by decide +kernel, by decide +kernel⟩

/-- Two lines of the shipped file that follow each other; no build knows the second manager. -/
def stackLine : Line := ⟨"Device.InterfaceStack".toList, "ifStackMgr".toList, by decide +kernel, by decide +kernel⟩

/-- The line after `stackLine`. -/
def webConfigLine : Line :=
  ⟨"Device.X_RDK_WebConfig".toList, "webConfigMgr".toList, by decide +kernel, by decide +kernel⟩

/-- A build with every profile. -/
def fullBuild : Build := ⟨true, true, true, true⟩

theorem loaded_timeLine : Loaded fullBuild [timeLine] (hostIf_initalize_ConfigManger fullBuild id (fileOf [timeLine])) := by
  refine (loaded_iff (fileOf_written [timeLine]) (List.nodup_singleton _)).mpr ⟨?_, ?_, ?_⟩
  · intro pre l post h _ j hj
    cases pre with
    | nil => cases hj
    | cons a pre => simp at h
  · rintro pre l post h - ⟨j, hj, -⟩
    cases pre with
    | nil => cases hj
    | cons a pre => simp at h
  · intro pre l mid k post m h
    have := congrArg List.length h
    simp only [List.length_append, List.length_cons, List.length_nil] at this
    omega

theorem webConfigLine_stored : Written [stackLine, webConfigLine] (fileOf [stackLine, webConfigLine]) ∧
    ([stackLine, webConfigLine].map Line.param).Nodup ∧ ¬Loaded fullBuild [stackLine, webConfigLine]
      (hostIf_initalize_ConfigManger fullBuild id (fileOf [stackLine, webConfigLine])) := by
  have hn : ([stackLine, webConfigLine].map Line.param).Nodup := by decide +kernel
  refine ⟨fileOf_written _, hn, fun h => ?_⟩
  rw [config_eq_insertAll fullBuild id (fileOf_written _)] at h
  obtain ⟨j, hj, -, hc⟩ := (h.clean hn).hidden [stackLine] webConfigLine [] rfl (by decide +kernel)
    ⟨stackLine, by simp, by decide +kernel⟩
  rw [List.mem_singleton.mp hj] at hc
  revert hc
  decide +kernel

end Tr69HostIf.Mgr
