import RocketMQ.Common.FilterAPI
import RocketMQ.Message.PropertyBlock

/-!
# What comes out of a split

`UtilAll::Split` of `src/common/UtilAll.h`, both overloads. The pieces joined by the delimiter are
always the input. The loop runs once less than the input has characters, and the last piece may
still contain the delimiter when that is too few: when the delimiter is one character and the
input has no other.
-/

namespace RocketMQ.UtilAll

/-- The pieces joined by the delimiter give back the string, and none of them contains it. -/
def Exact (delimiter s : StdString) (pieces : List StdString) : Prop :=
  List.intercalate delimiter pieces = s ∧ ∀ piece ∈ pieces, ¬ delimiter <:+: piece

section Loop

variable {delimiter s : StdString} {c : UInt8} {passes : Nat}

theorem splitStringLoop_ne_nil (delimiter : StdString) (passes : Nat) (s : StdString) :
    splitStringLoop delimiter passes s ≠ [] := by
  cases passes with
  | zero => exact List.cons_ne_nil _ _
  | succ passes =>
    rw [splitStringLoop]
    split <;> exact List.cons_ne_nil _ _

/-- The loop at a character is the one at the string of it. -/
theorem splitLoop_eq_splitStringLoop (c : UInt8) (passes : Nat) (s : StdString) :
    splitLoop c passes s = splitStringLoop [c] passes s := by
  induction passes generalizing s with
  | zero => rfl
  | succ passes ih =>
    rw [splitLoop, splitStringLoop, Base.find_singleton]
    cases s.idxOf? c with
    | none => rfl
    | some right => exact congrArg _ (ih _)

theorem split_eq_splitString (s : StdString) (c : UInt8) : split s c = splitString s [c] :=
  splitLoop_eq_splitStringLoop c (s.length - 1) s

/-- Whatever the number of passes, nothing is lost and nothing is added. -/
theorem intercalate_splitStringLoop (delimiter : StdString) (passes : Nat) (s : StdString) :
    List.intercalate delimiter (splitStringLoop delimiter passes s) = s := by
  induction passes generalizing s with
  | zero => exact List.intercalate_singleton
  | succ passes ih =>
    rw [splitStringLoop]
    cases hfind : Base.find delimiter s with
    | none => exact List.intercalate_singleton
    | some right =>
      dsimp only
      rw [List.intercalate_cons_of_ne_nil (splitStringLoop_ne_nil _ _ _), ih]
      exact Base.take_append_drop_of_find hfind

/-- What the passes left keep true of the rest keeps the delimiter out of the pieces, if with no
pass left it keeps it out of the rest. -/
theorem not_infix_of_mem_splitStringLoop {P : Nat → StdString → Prop} (hne : delimiter ≠ [])
    (hstep : ∀ passes rest right, P (passes + 1) rest → Base.find delimiter rest = some right →
      P passes (rest.drop (right + delimiter.length)))
    (hend : ∀ rest, P 0 rest → ¬ delimiter <:+: rest) (hinv : P passes s) :
    ∀ piece ∈ splitStringLoop delimiter passes s, ¬ delimiter <:+: piece := by
  induction passes generalizing s with
  | zero =>
    rintro piece hpiece
    rw [List.mem_singleton.mp hpiece]
    exact hend s hinv
  | succ passes ih =>
    intro piece hpiece
    rw [splitStringLoop] at hpiece
    cases hfind : Base.find delimiter s with
    | none =>
      rw [hfind] at hpiece
      rw [List.mem_singleton.mp hpiece]
      exact Base.find_eq_none_iff.mp hfind
    | some right =>
      rw [hfind] at hpiece
      rcases List.mem_cons.mp hpiece with rfl | hlater
      · exact Base.not_infix_take_of_find hne hfind
      · exact ih (hstep passes s right hinv hfind) piece hlater

/-- Each pass takes off at least a delimiter, so that at the end less than one is left. -/
theorem not_infix_of_mem_of_length_lt (hlen : s.length < delimiter.length * (passes + 1)) :
    ∀ piece ∈ splitStringLoop delimiter passes s, ¬ delimiter <:+: piece := by
  have hpos : 0 < delimiter.length := by
    apply Nat.pos_of_ne_zero
    intro hzero
    simp [hzero] at hlen
  apply not_infix_of_mem_splitStringLoop (List.ne_nil_of_length_pos hpos)
    (P := fun passes rest ↦ rest.length < delimiter.length * (passes + 1)) _ _ hlen
  · intro passes rest right hlt _
    rw [Nat.mul_succ] at hlt
    have hroom := Nat.mul_pos hpos (Nat.add_one_pos passes)
    rw [List.length_drop]
    omega
  · intro rest hlt hinside
    have hle := hinside.length_le
    omega

/-- Each pass takes off one of the characters, so that at the end none is left. -/
theorem not_infix_of_mem_of_count_le (hcount : s.count c ≤ passes) :
    ∀ piece ∈ splitStringLoop [c] passes s, ¬ [c] <:+: piece := by
  apply not_infix_of_mem_splitStringLoop (List.cons_ne_nil c [])
    (P := fun passes rest ↦ rest.count c ≤ passes) _ _ hcount
  · intro passes rest right hle hfind
    rw [← Base.take_append_drop_of_find hfind, List.count_append, List.count_append,
      List.count_singleton_self] at hle
    exact (by omega)
  · intro rest hle
    rw [List.singleton_infix_iff]
    exact List.count_eq_zero.mp (Nat.le_zero.mp hle)

/-- Where there are only delimiters, and one more than passes, the last one stays. -/
theorem singleton_mem_splitStringLoop_replicate (c : UInt8) (passes : Nat) :
    [c] ∈ splitStringLoop [c] passes (List.replicate (passes + 1) c) := by
  induction passes with
  | zero => exact List.mem_singleton_self [c]
  | succ passes ih =>
    have hfind : Base.find [c] (List.replicate (passes + 1 + 1) c) = some 0 := by
      simp [Base.find_singleton, List.replicate_succ, List.idxOf?_cons]
    rw [splitStringLoop, hfind]
    exact List.mem_cons_of_mem _ ih

end Loop

/-! ### Exactly when a split is exact -/

section Split

variable {s delimiter : StdString} {c : UInt8}

/-- The pieces are free of a character exactly when the string is empty or has another one. -/
theorem forall_not_infix_split_iff :
    (∀ piece ∈ split s c, ¬ [c] <:+: piece) ↔ s = [] ∨ ∃ b ∈ s, b ≠ c := by
  rw [split_eq_splitString, splitString]
  constructor
  · intro hfree
    by_contra hcovered
    push Not at hcovered
    obtain ⟨hne, hall⟩ := hcovered
    obtain ⟨passes, hlen⟩ := Nat.exists_eq_succ_of_ne_zero (mt List.eq_nil_of_length_eq_zero hne)
    rw [hlen, List.eq_replicate_iff.mpr ⟨hlen, hall⟩] at hfree
    exact hfree [c] (singleton_mem_splitStringLoop_replicate c passes) (List.infix_refl [c])
  · rintro (rfl | hother)
    · exact not_infix_of_mem_of_count_le (Nat.le_refl 0)
    · have hlt := List.count_lt_length_iff.mpr hother
      exact not_infix_of_mem_of_count_le (by omega)

/-- The pieces are free of a string unless it is one character and the split string is not empty
and has no other. -/
theorem forall_not_infix_splitString_iff (hne : delimiter ≠ []) :
    (∀ piece ∈ splitString s delimiter, ¬ delimiter <:+: piece) ↔
      2 ≤ delimiter.length ∨ s = [] ∨ ∃ b ∈ s, b ∉ delimiter := by
  match delimiter with
  | [] => exact absurd rfl hne
  | [c] =>
    rw [← split_eq_splitString, forall_not_infix_split_iff]
    simp
  | c :: d :: rest =>
    have htwo : 2 ≤ (c :: d :: rest).length := Nat.le_add_left 2 rest.length
    refine iff_of_true ?_ (.inl htwo)
    apply not_infix_of_mem_of_length_lt
    have hroom := Nat.mul_le_mul_right (s.length - 1 + 1) htwo
    omega

/-- A split at a string or at a character is exact unless the delimiter is one character and the
string is not empty and has no other. -/
theorem split_exact_iff (hne : delimiter ≠ []) :
    (Exact delimiter s (splitString s delimiter) ↔
      2 ≤ delimiter.length ∨ s = [] ∨ ∃ b ∈ s, b ∉ delimiter) ∧
    ∀ c, Exact [c] s (split s c) ↔ s = [] ∨ ∃ b ∈ s, b ≠ c := by
  constructor
  · rw [Exact, forall_not_infix_splitString_iff hne]
    exact and_iff_right (intercalate_splitStringLoop _ _ s)
  · intro c
    rw [Exact, forall_not_infix_split_iff, split_eq_splitString]
    exact and_iff_right (intercalate_splitStringLoop _ _ s)

/-- Empty pieces at both ends and in between are not lost. -/
theorem split_exact_of_two_characters :
    Exact (str "||") (str "||a||||b||") (splitString (str "||a||||b||") (str "||")) ∧
      Exact [44] (str ",a,,b,") (split (str ",a,,b,") 44) :=
  ⟨(split_exact_iff (by decide)).1.mpr (.inl (by decide)),
    (split_exact_iff (s := str ",a,,b,") (List.cons_ne_nil 44 [])).2 44 |>.mpr
      (.inr ⟨97, by decide, by decide⟩)⟩

/-- A lone delimiter comes out as it went in, and of two the second does. -/
theorem split_lone_delimiter_not_exact :
    ¬ Exact (str ",") (str ",") (splitString (str ",") (str ",")) ∧
      ¬ Exact [44] (str ",") (split (str ",") 44) ∧
      ¬ Exact [44] (str ",,") (split (str ",,") 44) := by
  refine ⟨?_, ?_, ?_⟩
  all_goals
    rintro ⟨-, hfree⟩
    exact hfree [44] (by decide) (List.infix_refl [44])

end Split

end RocketMQ.UtilAll
