import ComputedFields.Text.Segments
import Mathlib.Data.List.Basic

namespace ComputedFields.Text

/-- Cutting at a separator is the library's own `splitOn`, so that its lemmas about joining again are at hand. -/
theorem pieces_eq_splitOn (sep : Char) (cs : List Char) : pieces sep cs = cs.splitOn sep := by
  induction cs with
  | nil => rfl
  | cons c rest ih =>
    rw [pieces, List.splitOn_cons_eq_if_modifyHead, ih]
    by_cases same : c = sep
    · simp only [same, beq_self_eq_true, if_true]
    · simp only [same, beq_eq_false_iff_ne.mpr same, if_false, Bool.false_eq_true]
      cases more : rest.splitOn sep with
      | nil => exact absurd more (List.splitOn_ne_nil sep rest)
      | cons => rfl

theorem split_ne_nil (sep : Char) (s : String) : split sep s ≠ [] := by
  intro empty
  have none := List.map_eq_nil_iff.mp empty
  rw [pieces_eq_splitOn] at none
  exact List.splitOn_ne_nil sep _ none

theorem not_mem_pieces {sep : Char} {cs piece : List Char} (member : piece ∈ pieces sep cs) : sep ∉ piece := by
  induction cs generalizing piece with
  | nil =>
    cases List.mem_singleton.mp member
    exact List.not_mem_nil
  | cons c rest ih =>
    by_cases same : c = sep
    · rw [pieces, if_pos same] at member
      rcases List.mem_cons.mp member with rfl | later
      · exact List.not_mem_nil
      · exact ih later
    · rw [pieces, if_neg same] at member
      cases more : pieces sep rest with
      | nil =>
        rw [more] at member
        cases List.mem_singleton.mp member
        exact fun inside => same (List.mem_singleton.mp inside).symm
      | cons first others =>
        rw [more] at member ih
        rcases List.mem_cons.mp member with rfl | later
        · exact List.not_mem_cons_of_ne_of_not_mem (fun equal => same equal.symm) (ih (List.mem_cons_self ..))
        · exact ih (List.mem_cons_of_mem _ later)

/-- No segment of a path contains the separator. -/
theorem not_mem_of_mem_split {sep : Char} {s segment : String} (member : segment ∈ split sep s) :
    sep ∉ segment.toList := by
  obtain ⟨piece, found, rfl⟩ := List.mem_map.mp member
  rw [String.toList_ofList]
  exact not_mem_pieces found

theorem toList_join (sep : String) (segments : List String) :
    (join sep segments).toList = sep.toList.intercalate (segments.map String.toList) := by
  induction segments with
  | nil => rfl
  | cons first rest ih =>
    cases rest with
    | nil => simp only [join, List.map_cons, List.map_nil, List.intercalate_singleton]
    | cons => simp only [join, String.toList_append, ih, List.map_cons, List.intercalate_cons_cons]

theorem join_append {sep : String} {xs ys : List String} (some : xs ≠ []) (some' : ys ≠ []) :
    join sep (xs ++ ys) = join sep xs ++ sep ++ join sep ys := by
  induction xs with
  | nil => exact absurd rfl some
  | cons first rest ih =>
    cases rest with
    | nil =>
      obtain ⟨next, more, rfl⟩ := List.exists_cons_of_ne_nil some'
      rfl
    | cons second rest =>
      have later := ih (List.cons_ne_nil _ _)
      simp only [List.cons_append, join] at later ⊢
      rw [later]
      simp only [String.append_assoc]

/-- A list that goes on is longer as a text too, so that only the list itself has its text. -/
theorem eq_of_join_eq {path other : List String} (proper : path ≠ []) (start : path <+: other)
    (same : join "_" path = join "_" other) : path = other := by
  obtain ⟨more, rfl⟩ := start
  by_contra different
  have rest : more ≠ [] := by
    rintro rfl
    exact different (List.append_nil path).symm
  rw [join_append proper rest] at same
  have length := congrArg (·.toList.length) same
  have underscore : "_".toList.length = 1 := rfl
  simp only [String.toList_append, List.length_append, underscore] at length
  omega

/-- Nothing is lost in cutting a text: joined again by the same separator, the segments give it back. -/
theorem join_split (c : Char) (s : String) : join (String.singleton c) (split c s) = s := by
  apply String.toList_injective
  rw [toList_join, String.toList_singleton, split, List.map_map]
  have same : String.toList ∘ String.ofList = id := funext fun _ => String.toList_ofList
  rw [same, List.map_id, pieces_eq_splitOn, List.intercalate_splitOn]

/-- Segments survive being joined and cut if there is at least one and none has the separator in it. Without the second
condition a segment would fall apart. -/
theorem split_join {c : Char} {segments : List String} (some : segments ≠ [])
    (outside : ∀ segment ∈ segments, c ∉ segment.toList) : split c (join (String.singleton c) segments) = segments := by
  rw [split, toList_join, String.toList_singleton, pieces_eq_splitOn, List.splitOn_intercalate]
  · have same : String.ofList ∘ String.toList = id := funext fun _ => String.ofList_toList
    rw [List.map_map, same, List.map_id]
  · intro piece member
    obtain ⟨segment, inside, rfl⟩ := List.mem_map.mp member
    exact outside segment inside
  · exact mt List.map_eq_nil_iff.mp some

theorem split_inj {c : Char} {s t : String} : split c s = split c t ↔ s = t := by
  constructor
  · intro same
    rw [← join_split c s, same, join_split]
  · rintro rfl
    rfl

theorem not_mem_join {c : Char} {sep : String} {segments : List String} (outside : c ∉ sep.toList)
    (none : ∀ segment ∈ segments, c ∉ segment.toList) : c ∉ (join sep segments).toList := by
  induction segments with
  | nil => simp only [join, String.toList_empty, List.not_mem_nil, not_false_eq_true]
  | cons first rest ih =>
    have atFirst := none first (List.mem_cons_self ..)
    cases rest with
    | nil => exact atFirst
    | cons =>
      have later := ih fun segment member => none segment (List.mem_cons_of_mem _ member)
      simp only [join, String.toList_append, List.mem_append, not_or]
      exact ⟨⟨atFirst, outside⟩, later⟩

/-- A text with a single separator is cut there in one way only. -/
theorem append_dot_inj {before after before' after' : String} (inBefore : '.' ∉ before.toList)
    (inAfter : '.' ∉ after.toList) :
    before ++ "." ++ after = before' ++ "." ++ after' ↔ before = before' ∧ after = after' := by
  have dot : ".".toList = ['.'] := rfl
  rw [← String.toList_inj, ← String.toList_inj, ← @String.toList_inj after]
  simp only [String.toList_append, dot, List.append_assoc, List.singleton_append]
  rw [List.append_cons_inj_of_notMem inBefore inAfter]
  simp only [true_and]

/-- Two texts are equal if they stand in front of the same separator, and of a second one as well, in texts that agree.
If one of them went on past the other, a single character would have to be both separators. -/
theorem before_separators_eq {c d : Char} (different : c ≠ d) {x y afterX afterY afterX' afterY' : List Char}
    (byC : x ++ c :: afterX = y ++ c :: afterY) (byD : x ++ d :: afterX' = y ++ d :: afterY') : x = y := by
  rcases List.append_eq_append_iff.mp byC with ⟨gap, rfl, atC⟩ | ⟨gap, rfl, atC⟩
  · cases gap with
    | nil => exact (List.append_nil x).symm
    | cons e rest =>
      rw [List.append_assoc, List.append_cancel_left_eq] at byD
      exact absurd ((List.cons.inj atC).1.trans (List.cons.inj byD).1.symm) different
  · cases gap with
    | nil => exact List.append_nil y
    | cons e rest =>
      rw [List.append_assoc, List.append_cancel_left_eq] at byD
      exact absurd ((List.cons.inj atC).1.trans (List.cons.inj byD).1) different

theorem one_piece_ne_two {c d : Char} (different : c ≠ d) {x y z z' : List Char} (byC : x = y ++ c :: z)
    (byD : x = y ++ d :: z') : False :=
  different (List.cons.inj (List.append_cancel_left (byC.symm.trans byD))).1

/-- Joined by two different separators, a list can be told from every other one: the separators stand exactly
where the two texts differ. -/
theorem intercalate_pair_inj {c d : Char} (different : c ≠ d) {xs ys : List (List Char)} (some : xs ≠ [])
    (some' : ys ≠ []) (byC : [c].intercalate xs = [c].intercalate ys)
    (byD : [d].intercalate xs = [d].intercalate ys) : xs = ys := by
  induction xs generalizing ys with
  | nil => exact absurd rfl some
  | cons x xs ih =>
    cases ys with
    | nil => exact absurd rfl some'
    | cons y ys =>
      cases xs with
      | nil =>
        cases ys with
        | nil => rw [List.intercalate_singleton, List.intercalate_singleton] at byC; rw [byC]
        | cons =>
          simp only [List.intercalate_singleton, List.intercalate_cons_cons, List.append_assoc,
            List.singleton_append] at byC byD
          exact (one_piece_ne_two different byC byD).elim
      | cons x' xs =>
        cases ys with
        | nil =>
          simp only [List.intercalate_singleton, List.intercalate_cons_cons, List.append_assoc,
            List.singleton_append] at byC byD
          exact (one_piece_ne_two different byC.symm byD.symm).elim
        | cons y' ys =>
          simp only [List.intercalate_cons_cons, List.append_assoc, List.singleton_append] at byC byD
          obtain rfl := before_separators_eq different byC byD
          have restC := (List.cons.inj (List.append_cancel_left byC)).2
          have restD := (List.cons.inj (List.append_cancel_left byD)).2
          rw [ih (List.cons_ne_nil _ _) (List.cons_ne_nil _ _) restC restD]

/-- The name of a lookup joins its relations by underscores and the path by dots. Together the two determine the
relations, whatever characters these have. -/
theorem join_pair_inj {xs ys : List String} (some : xs ≠ []) (some' : ys ≠ [])
    (underscored : join "_" xs = join "_" ys) (dotted : join "." xs = join "." ys) : xs = ys := by
  have byUnderscore := congrArg String.toList underscored
  have byDot := congrArg String.toList dotted
  rw [toList_join, toList_join] at byUnderscore byDot
  have chars := intercalate_pair_inj (by decide : '_' ≠ '.') (mt List.map_eq_nil_iff.mp some)
    (mt List.map_eq_nil_iff.mp some') byUnderscore byDot
  exact List.map_injective_iff.mpr (fun _ _ same => String.toList_injective same) chars

end ComputedFields.Text
