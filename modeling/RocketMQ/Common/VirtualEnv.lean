import RocketMQ.Producer.TopicPublishInfo

/-!
# Project groups

`src/common/UtilAll.h`, `src/common/VirtualEnvUtil.cpp`. A client may carry a project
group prefix, which the API layer appends to group and topic names on the way out.
The `char[1024]` buffer of the source is assumed to hold the formatted prefix.
-/

namespace RocketMQ

/-- `WHITESPACE`, `src/common/UtilAll.h:29`. -/
def whitespace : StdString := str " \t\r\n"

/-- `UtilAll::isBlank`, `src/common/UtilAll.h:107–122`. -/
def isBlank (s : StdString) : Bool := s.all (whitespace.contains ·)

namespace VirtualEnvUtil

/-- `VIRTUAL_APPGROUP_PREFIX` after `sprintf`, `src/common/VirtualEnvUtil.cpp:23,29–30`, with what
`projectGroup.c_str()` shows of the group. -/
def formatted (projectGroup : StdString) : StdString :=
  str "%PROJECT_" ++ projectGroup.takeWhile (· ≠ 0) ++ str "%"

/-- `std::string::find_last_of`: the last position that holds one of the characters. -/
def findLastOf (s chars : StdString) : Option Nat :=
  (List.range s.length).reverse.find? fun i ↦ (s[i]?.map (chars.contains ·)).getD false

/-- `src/common/VirtualEnvUtil.cpp:25–46`. -/
def buildWithProjectGroup (origin projectGroup : StdString) : StdString :=
  if !isBlank projectGroup then
    match findLastOf origin (formatted projectGroup) with
    | none => origin ++ formatted projectGroup
    | some _ => origin
  else origin

/-- `src/common/VirtualEnvUtil.cpp:56–70`. The position is kept in an `int`; a negative one is past
the end of every string when it is turned into a `size_t` again. -/
def clearProjectGroup (origin projectGroup : StdString) : StdString :=
  match findLastOf origin (formatted projectGroup) with
  | none => origin
  | some pos =>
    if !isBlank (formatted projectGroup) ∧ 0 ≤ toInt32 pos then origin.take (toInt32 pos).toNat
    else origin

/-- Nothing is found exactly when no character of the string is one of the given ones. -/
theorem findLastOf_eq_none_iff {s chars : StdString} :
    findLastOf s chars = none ↔ ∀ c ∈ s, c ∉ chars := by
  rw [findLastOf, List.find?_eq_none]
  simp only [List.mem_reverse, List.mem_range]
  constructor
  · intro h c hc hcs
    obtain ⟨i, hi, rfl⟩ := List.mem_iff_getElem.mp hc
    exact h i hi (by simp [List.getElem?_eq_getElem hi, hcs])
  · intro h i hi hf
    simp only [List.getElem?_eq_getElem hi, Option.map_some, Option.getD_some,
      List.contains_iff_mem] at hf
    exact h _ (List.getElem_mem hi) hf

/-- A name that already carries characters of the prefix is not extended again. -/
theorem buildWithProjectGroup_idem (origin projectGroup : StdString) :
    buildWithProjectGroup (buildWithProjectGroup origin projectGroup) projectGroup =
      buildWithProjectGroup origin projectGroup := by
  cases hb : isBlank projectGroup with
  | true => simp [buildWithProjectGroup, hb]
  | false =>
    cases hf : findLastOf origin (formatted projectGroup) with
    | some _ => simp [buildWithProjectGroup, hb, hf]
    | none =>
      have hne : findLastOf (origin ++ formatted projectGroup) (formatted projectGroup) ≠
          none := by
        intro h
        have hmem : (37 : UInt8) ∈ formatted projectGroup :=
          List.mem_append_right _ (by decide)
        exact findLastOf_eq_none_iff.mp h 37 (List.mem_append_right _ hmem) hmem
      obtain ⟨i, hi⟩ := Option.ne_none_iff_exists'.mp hne
      simp [buildWithProjectGroup, hb, hf, hi]

/-! ### Round trips -/

section RoundTrip

variable {origin projectGroup : StdString}

/-- What names with and without a project group are to be: a name without the marker gets it, and
loses it again. -/
structure RoundTrips (origin projectGroup : StdString) : Prop where
  clear_build : ¬ formatted projectGroup <:+: origin →
    clearProjectGroup (buildWithProjectGroup origin projectGroup) projectGroup = origin
  build_build : buildWithProjectGroup (buildWithProjectGroup origin projectGroup) projectGroup =
    buildWithProjectGroup origin projectGroup
  build_eq : ¬ formatted projectGroup <:+: origin →
    buildWithProjectGroup origin projectGroup = origin ++ formatted projectGroup
  clear_eq : ¬ formatted projectGroup <:+: origin → clearProjectGroup origin projectGroup = origin

/-- The last character in common with the marker stands where an `int` is negative. -/
def PastInt (origin projectGroup : StdString) : Prop :=
  ∃ pos ∈ findLastOf origin (formatted projectGroup), toInt32 pos < 0

/-- Nothing of the name is in the marker. -/
def NothingInCommon (origin projectGroup : StdString) : Prop :=
  ∀ c ∈ origin, c ∉ formatted projectGroup

theorem percent_mem_formatted (projectGroup : StdString) : 37 ∈ formatted projectGroup :=
  List.mem_append_right _ (by decide)

theorem not_isBlank_formatted (projectGroup : StdString) :
    isBlank (formatted projectGroup) = false := by
  rw [isBlank, List.all_eq_false]
  exact ⟨37, percent_mem_formatted projectGroup, by decide⟩

theorem lt_of_findLastOf {s chars : StdString} {pos : Nat} (h : findLastOf s chars = some pos) :
    pos < s.length :=
  List.mem_range.mp (List.mem_reverse.mp (List.mem_of_find?_eq_some h))

theorem findLastOf_concat {chars : StdString} {c : UInt8} (h : c ∈ chars) (s : StdString) :
    findLastOf (s ++ [c]) chars = some s.length := by
  rw [findLastOf, List.length_append, List.length_singleton, List.range_succ, List.reverse_concat]
  exact List.find?_cons_of_pos (by simp [h])

/-- An `int` is at most the number that was put into it. -/
theorem toInt32_le (n : Nat) : toInt32 n ≤ n := by
  rw [toInt32, Int.bmod_def]
  split <;> omega

theorem clearProjectGroup_of_none (h : findLastOf origin (formatted projectGroup) = none) :
    clearProjectGroup origin projectGroup = origin := by
  rw [clearProjectGroup, h]

theorem clearProjectGroup_of_some {pos : Nat}
    (h : findLastOf origin (formatted projectGroup) = some pos) :
    clearProjectGroup origin projectGroup =
      if 0 ≤ toInt32 pos then origin.take (toInt32 pos).toNat else origin := by
  rw [clearProjectGroup, h]
  simp only [not_isBlank_formatted, Bool.not_false, true_and]

/-- A name that is cut at a position within it changes, unless the position is lost in the
`int`. -/
theorem clearProjectGroup_eq_iff :
    clearProjectGroup origin projectGroup = origin ↔
      NothingInCommon origin projectGroup ∨ PastInt origin projectGroup := by
  cases hfound : findLastOf origin (formatted projectGroup) with
  | none =>
    exact iff_of_true (clearProjectGroup_of_none hfound) (.inl (findLastOf_eq_none_iff.mp hfound))
  | some pos =>
    have hcommon : ¬ NothingInCommon origin projectGroup := fun hnothing ↦ by
      rw [findLastOf_eq_none_iff.mpr hnothing] at hfound
      cases hfound
    have hpast : PastInt origin projectGroup ↔ toInt32 pos < 0 := by
      rw [PastInt, hfound]
      exact ⟨fun ⟨_, rfl, hneg⟩ ↦ hneg, fun hneg ↦ ⟨pos, rfl, hneg⟩⟩
    rw [clearProjectGroup_of_some hfound, hpast, or_iff_right hcommon]
    split_ifs with hpos
    · refine iff_of_false (fun htake ↦ ?_) (Int.not_lt.mpr hpos)
      have hlt := lt_of_findLastOf hfound
      have hle := toInt32_le pos
      have hlen := congrArg List.length htake
      rw [List.length_take] at hlen
      omega
    · exact iff_of_true rfl (Int.not_le.mp hpos)

/-- The marker is put behind a name exactly when nothing of the name is in it. -/
theorem buildWithProjectGroup_eq_iff (hgroup : isBlank projectGroup = false) :
    buildWithProjectGroup origin projectGroup = origin ++ formatted projectGroup ↔
      NothingInCommon origin projectGroup := by
  rw [NothingInCommon, ← findLastOf_eq_none_iff, buildWithProjectGroup, hgroup]
  cases findLastOf origin (formatted projectGroup) with
  | none => exact iff_of_true rfl rfl
  | some pos =>
    refine iff_of_false (fun happend ↦ ?_) nofun
    have hmem := percent_mem_formatted projectGroup
    rw [List.self_eq_append_right.mp happend] at hmem
    cases hmem

/-- A marker that was put behind a name is cut at its last character, not at its first. -/
theorem clearProjectGroup_append_ne (hshort : (formatted projectGroup).length < 1024) :
    clearProjectGroup (origin ++ formatted projectGroup) projectGroup ≠ origin := by
  obtain ⟨body, hbody⟩ : ∃ body, formatted projectGroup = body ++ [37] := ⟨_, rfl⟩
  have hlen : (origin ++ formatted projectGroup).length = origin.length + body.length + 1 := by
    rw [hbody, ← List.append_assoc, List.length_append, List.length_append, List.length_singleton]
  have hfound : findLastOf (origin ++ formatted projectGroup) (formatted projectGroup) =
      some (origin ++ body).length := by
    rw [hbody, ← List.append_assoc]
    exact findLastOf_concat (hbody ▸ percent_mem_formatted projectGroup) _
  have hinside : 0 < body.length ∧ body.length < 1024 := by
    rw [hbody, List.length_append, List.length_singleton] at hshort
    have hten : 10 ≤ (formatted projectGroup).length := by
      rw [formatted, List.length_append, List.length_append]
      exact Nat.add_le_add (Nat.le_add_right 9 _) (Nat.le_refl 1)
    rw [hbody, List.length_append, List.length_singleton] at hten
    omega
  intro hclear
  have hshorter := congrArg List.length hclear
  rw [clearProjectGroup_of_some hfound, List.length_append] at hshorter
  split_ifs at hshorter with hpos
  · rw [List.length_take, hlen] at hshorter
    -- the position is not that of the first character of the marker, not even modulo 2 ^ 32
    rw [toInt32, Int.bmod_def] at hshorter
    split_ifs at hshorter <;> omega
  · omega

/-- Only a position that is lost in the `int` brings a name back. -/
theorem clear_build_eq_iff (hgroup : isBlank projectGroup = false)
    (hshort : (formatted projectGroup).length < 1024) :
    clearProjectGroup (buildWithProjectGroup origin projectGroup) projectGroup = origin ↔
      PastInt origin projectGroup := by
  by_cases hnothing : NothingInCommon origin projectGroup
  · rw [(buildWithProjectGroup_eq_iff hgroup).mpr hnothing]
    apply iff_of_false (clearProjectGroup_append_ne hshort)
    rintro ⟨pos, hfound, -⟩
    rw [findLastOf_eq_none_iff.mpr hnothing] at hfound
    cases hfound
  · have hkept : buildWithProjectGroup origin projectGroup = origin := by
      rw [buildWithProjectGroup, hgroup]
      cases hfound : findLastOf origin (formatted projectGroup) with
      | none => exact absurd (findLastOf_eq_none_iff.mp hfound) hnothing
      | some pos => rfl
    rw [hkept, clearProjectGroup_eq_iff, or_iff_right hnothing]

/-- **Project groups**: building the marker in is idempotent. The other laws never hold together
of a name that lacks the marker: the name is extended when nothing of it is in the marker, and
only then, but it comes back only when something of it is, and past the range of an `int`. -/
theorem roundTrips_iff (origin projectGroup : StdString) (hgroup : isBlank projectGroup = false)
    (hshort : (formatted projectGroup).length < 1024) :
    (RoundTrips origin projectGroup ↔ formatted projectGroup <:+: origin) ∧
      (buildWithProjectGroup (buildWithProjectGroup origin projectGroup) projectGroup =
        buildWithProjectGroup origin projectGroup) ∧
      (clearProjectGroup (buildWithProjectGroup origin projectGroup) projectGroup = origin ↔
        PastInt origin projectGroup) ∧
      (buildWithProjectGroup origin projectGroup = origin ++ formatted projectGroup ↔
        NothingInCommon origin projectGroup) ∧
      (clearProjectGroup origin projectGroup = origin ↔
        NothingInCommon origin projectGroup ∨ PastInt origin projectGroup) := by
  have hidem := buildWithProjectGroup_idem origin projectGroup
  refine ⟨⟨fun h ↦ ?_, fun hmarked ↦ ?_⟩, hidem, clear_build_eq_iff hgroup hshort,
    buildWithProjectGroup_eq_iff hgroup, clearProjectGroup_eq_iff⟩
  · by_contra hlacks
    obtain ⟨pos, hfound, -⟩ := (clear_build_eq_iff hgroup hshort).mp (h.clear_build hlacks)
    have hnothing := (buildWithProjectGroup_eq_iff hgroup).mp (h.build_eq hlacks)
    rw [findLastOf_eq_none_iff.mpr hnothing] at hfound
    cases hfound
  · exact ⟨fun h ↦ absurd hmarked h, hidem, fun h ↦ absurd hmarked h, fun h ↦ absurd hmarked h⟩

/-- A topic with characters of the marker is not extended, and is cut at the last of them. -/
theorem topicTest_cut :
    buildWithProjectGroup (str "TopicTest") (str "g") = str "TopicTest" ∧
      clearProjectGroup (str "TopicTest") (str "g") = str "Topic" ∧
      ¬ RoundTrips (str "TopicTest") (str "g") := by
  have hcut : clearProjectGroup (str "TopicTest") (str "g") = str "Topic" := by decide
  refine ⟨by decide, hcut, fun h ↦ ?_⟩
  have hback := h.clear_eq fun hmarked ↦ absurd hmarked.length_le (by decide)
  rw [hcut] at hback
  exact absurd hback (by decide)

/-- A name without any character of the marker is extended, and keeps most of it. -/
theorem roundTrips_iff_abc :
    ¬ RoundTrips (str "abc") (str "g") ∧
      buildWithProjectGroup (str "abc") (str "g") = str "abc%PROJECT_g%" ∧
      clearProjectGroup (str "abc%PROJECT_g%") (str "g") = str "abc%PROJECT_g" := by
  have h := roundTrips_iff (str "abc") (str "g") (by decide) (by decide)
  have hlacks : ¬ formatted (str "g") <:+: str "abc" := fun hmarked ↦
    absurd hmarked.length_le (by decide)
  have hapart : (str "abc").all (fun c ↦ c ∉ formatted (str "g")) = true := by decide
  exact ⟨mt h.1.mp hlacks, h.2.2.2.1.mpr fun c hc ↦
    of_decide_eq_true (List.all_eq_true.mp hapart c hc), by decide⟩

end RoundTrip

end VirtualEnvUtil
end RocketMQ
