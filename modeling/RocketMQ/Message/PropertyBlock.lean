import RocketMQ.Message.MessageDecoder

/-!
# The property block of a message

`messageProperties2String` writes a map as `name 1 value 2` for each entry;
`string2messageProperties` reads it back by splitting at the separators. That gives the map
again when no name is empty and neither separator occurs in a name or a value.
-/

namespace RocketMQ
namespace UtilAll

/-! ### Splitting what was joined -/

section Split

variable {delimiter : UInt8} {s : StdString}

theorem splitLoop_ne_nil (delimiter : UInt8) (passes : Nat) (s : StdString) :
    splitLoop delimiter passes s ≠ [] := by
  cases passes with
  | zero => exact List.cons_ne_nil _ _
  | succ passes =>
    rw [splitLoop]
    split <;> exact List.cons_ne_nil _ _

theorem splitLoop_of_notMem (passes : Nat) (h : delimiter ∉ s) :
    splitLoop delimiter passes s = [s] := by
  cases passes with
  | zero => rfl
  | succ passes =>
    have hnone : s.idxOf? delimiter = none := List.idxOf?_eq_none_iff.mpr h
    rw [splitLoop, hnone]

theorem idxOf?_append_cons (rest : StdString) (h : delimiter ∉ s) :
    (s ++ delimiter :: rest).idxOf? delimiter = some s.length := by
  induction s with
  | nil => simp [List.idxOf?_cons]
  | cons b s ih =>
    rw [List.mem_cons, not_or] at h
    have hne : (b == delimiter) = false := beq_false_of_ne (Ne.symm h.1)
    rw [List.cons_append, List.idxOf?_cons, hne, ih h.2]
    rfl

/-- One pass takes off what stands before the first delimiter. -/
theorem splitLoop_append (passes : Nat) (rest : StdString) (h : delimiter ∉ s) :
    splitLoop delimiter (passes + 1) (s ++ delimiter :: rest) =
      s :: splitLoop delimiter passes rest := by
  have hdrop : (s ++ delimiter :: rest).drop (s.length + 1) = rest := by
    rw [List.drop_append, List.drop_eq_nil_of_le (Nat.le_succ _)]
    simp
  simp only [splitLoop, idxOf?_append_cons rest h, hdrop, List.take_left]

/-- Enough passes take all parts apart that a delimiter was put behind. -/
theorem splitLoop_flatMap {passes : Nat} {parts : List StdString}
    (hparts : ∀ part ∈ parts, delimiter ∉ part) (hpasses : parts.length ≤ passes) :
    splitLoop delimiter passes (parts.flatMap fun part ↦ part ++ [delimiter]) = parts ++ [[]] := by
  induction parts generalizing passes with
  | nil => exact splitLoop_of_notMem passes List.not_mem_nil
  | cons part parts ih =>
    obtain ⟨passes, rfl⟩ : ∃ n, passes = n + 1 :=
      ⟨passes - 1, by rw [List.length_cons] at hpasses; omega⟩
    obtain ⟨hpart, hrest⟩ := List.forall_mem_cons.mp hparts
    rw [List.flatMap_cons, List.append_assoc, List.singleton_append,
      splitLoop_append passes _ hpart, ih hrest (Nat.le_of_succ_le_succ hpasses), List.cons_append]

/-- A part of what a pass takes apart is the whole of it, what stands before the first delimiter,
or a part of what stands behind. -/
theorem mem_splitLoop_succ {passes : Nat} {part : StdString}
    (hpart : part ∈ splitLoop delimiter (passes + 1) s) :
    delimiter ∉ s ∧ part = s ∨ ∃ right, s.idxOf? delimiter = some right ∧
      (part = s.take right ∨ part ∈ splitLoop delimiter passes (s.drop (right + 1))) := by
  cases hidx : s.idxOf? delimiter with
  | none =>
    rw [splitLoop, hidx, List.mem_singleton] at hpart
    exact .inl ⟨List.idxOf?_eq_none_iff.mp hidx, hpart⟩
  | some right =>
    rw [splitLoop, hidx] at hpart
    exact .inr ⟨right, rfl, List.mem_cons.mp hpart⟩

/-- A part has no delimiter, unless it is the one that is left when the passes are used up. -/
theorem notMem_of_mem_splitLoop {passes : Nat} {part : StdString} (hlen : s.length ≤ passes + 1)
    (hpart : part ∈ splitLoop delimiter passes s) : delimiter ∉ part ∨ part = [delimiter] := by
  induction passes generalizing s with
  | zero =>
    rw [splitLoop, List.mem_singleton] at hpart
    subst hpart
    match part, hlen with
    | [], _ => exact Or.inl List.not_mem_nil
    | [b], _ =>
      by_cases hb : b = delimiter
      · exact Or.inr (by rw [hb])
      · exact Or.inl (by simpa using Ne.symm hb)
  | succ passes ih =>
    rcases mem_splitLoop_succ hpart with ⟨hnot, rfl⟩ | ⟨right, hidx, rfl | hrest⟩
    · exact Or.inl hnot
    · -- the first delimiter is behind the first part
      obtain ⟨hright, -, hbefore⟩ := List.idxOf?_eq_some_iff.mp hidx
      apply Or.inl
      intro hmem
      obtain ⟨j, hj, heq⟩ := List.mem_take_iff_getElem.mp hmem
      exact hbefore j (by omega) heq
    · apply ih _ hrest
      rw [List.length_drop]
      omega

/-- The parts are made of the string. -/
theorem subset_of_mem_splitLoop {passes : Nat} {part : StdString}
    (hpart : part ∈ splitLoop delimiter passes s) : part ⊆ s := by
  induction passes generalizing s with
  | zero =>
    rw [splitLoop, List.mem_singleton] at hpart
    rw [hpart]
    exact List.Subset.refl s
  | succ passes ih =>
    rcases mem_splitLoop_succ hpart with ⟨-, rfl⟩ | ⟨right, -, rfl | hrest⟩
    · exact List.Subset.refl part
    · exact List.take_subset right s
    · exact fun b hb ↦ List.drop_subset (right + 1) s (ih hrest hb)

end Split
end UtilAll

namespace MessageDecoder

/-! ### Properties there and back -/

/-- Without `NUL` the whole buffer makes the string. -/
theorem cstr_eq_self {s : StdString} (h : 0 ∉ s) : cstr s = s := takeWhile_ne_nul h

/-- What the property block can hold: a name or a value without `NUL` and separators. -/
def Separable (s : StdString) : Prop := ∀ b ∈ s, b ≠ 0 ∧ b ≠ 1 ∧ b ≠ 2

instance (s : StdString) : Decidable (Separable s) := List.decidableBAll _ s

/-- An entry of a property block that can be told apart. -/
def SeparableEntry (entry : StdString × StdString) : Prop :=
  entry.1 ≠ [] ∧ Separable entry.1 ∧ Separable entry.2

/-- An entry without the separator behind it. -/
def entryText (entry : StdString × StdString) : StdString := entry.1 ++ [1] ++ entry.2

section Entries

variable {entry : StdString × StdString} {entries : List (StdString × StdString)}

theorem two_notMem_entryText (h : SeparableEntry entry) : 2 ∉ entryText entry := by
  obtain ⟨-, hname, hvalue⟩ := h
  simp only [entryText, List.mem_append, List.mem_singleton, not_or]
  exact ⟨⟨fun h ↦ (hname 2 h).2.2 rfl, by decide⟩, fun h ↦ (hvalue 2 h).2.2 rfl⟩

/-- An entry is split into its name and its value, an empty value included. -/
theorem split_entryText (h : SeparableEntry entry) :
    UtilAll.split (entryText entry) 1 = [entry.1, entry.2] := by
  obtain ⟨hne, hname, hvalue⟩ := h
  have hpos : 0 < entry.1.length := List.length_pos_of_ne_nil hne
  have hlen : (entryText entry).length - 1 = (entry.1.length + entry.2.length - 1) + 1 := by
    simp only [entryText, List.length_append, List.length_singleton]
    omega
  rw [UtilAll.split, hlen, entryText, List.append_assoc, List.singleton_append,
    UtilAll.splitLoop_append _ _ fun h ↦ (hname 1 h).2.1 rfl,
    UtilAll.splitLoop_of_notMem _ fun h ↦ (hvalue 1 h).2.1 rfl]

/-- Both separators of every entry count. -/
theorem two_mul_length_le (entries : List (StdString × StdString)) :
    2 * entries.length ≤ (entries.flatMap fun entry ↦ entryText entry ++ [2]).length := by
  induction entries with
  | nil => exact Nat.le_refl _
  | cons entry entries ih =>
    have hentry : (entryText entry).length = entry.1.length + 1 + entry.2.length := by
      simp only [entryText, List.length_append, List.length_singleton]
    rw [List.flatMap_cons, List.length_append, List.length_append, List.length_cons, hentry,
      List.length_singleton]
    omega

/-- The block of several entries is split into them, with an empty string at the end. -/
theorem split_entries (h : ∀ entry ∈ entries, SeparableEntry entry) :
    UtilAll.split (entries.flatMap fun entry ↦ entryText entry ++ [2]) 2 =
      entries.map entryText ++ [[]] := by
  have hmap : (entries.flatMap fun entry ↦ entryText entry ++ [2]) =
      (entries.map entryText).flatMap fun part ↦ part ++ [2] := by
    rw [List.flatMap_map]
  have hlen : entries.length ≤ (entries.flatMap fun entry ↦ entryText entry ++ [2]).length - 1 := by
    have hge := two_mul_length_le entries
    omega
  rw [UtilAll.split]
  rw [hmap] at hlen ⊢
  refine UtilAll.splitLoop_flatMap (fun part hpart ↦ ?_) (by rwa [List.length_map])
  obtain ⟨entry, hentry, rfl⟩ := List.mem_map.mp hpart
  exact two_notMem_entryText (h entry hentry)

/-- Reading the block inserts the entries one after the other. -/
theorem string2messageProperties_entries (h : ∀ entry ∈ entries, SeparableEntry entry) :
    string2messageProperties (entries.flatMap fun entry ↦ entryText entry ++ [2]) =
      entries.foldl (fun properties entry ↦ properties.insert entry.1 entry.2) ∅ := by
  have hempty : UtilAll.split ([] : StdString) 1 = [[]] := rfl
  rw [string2messageProperties, split_entries h, List.foldl_append]
  simp only [List.foldl_cons, List.foldl_nil, hempty]
  generalize (∅ : Std.ExtTreeMap StdString StdString) = properties
  induction entries generalizing properties with
  | nil => rfl
  | cons entry entries ih =>
    obtain ⟨hentry, hrest⟩ := List.forall_mem_cons.mp h
    rw [List.map_cons, List.foldl_cons, List.foldl_cons, split_entryText hentry]
    exact ih hrest _

end Entries

/-- Inserting the entries of a map into the empty map gives the map. -/
theorem foldl_insert_toList (m : Std.ExtTreeMap StdString StdString) :
    m.toList.foldl (fun properties entry ↦ properties.insert entry.1 entry.2) ∅ = m := by
  have hdistinct : m.toList.Pairwise fun a b ↦ ¬ compare a.1 b.1 = .eq :=
    Std.ExtTreeMap.distinct_keys_toList
  rw [← Std.ExtTreeMap.insertMany_list_eq_foldl]
  refine Std.ExtTreeMap.ext_getElem? fun k ↦ ?_
  cases hk : m[k]? with
  | none =>
    have hnotMem : (m.toList.map Prod.fst).contains k = false := by
      rw [Std.ExtTreeMap.map_fst_toList_eq_keys, List.contains_eq_mem, decide_eq_false_iff_not,
        Std.ExtTreeMap.mem_keys, Std.ExtTreeMap.mem_iff_isSome_getElem?, hk]
      exact Bool.false_ne_true
    rw [Std.ExtTreeMap.getElem?_insertMany_list_of_contains_eq_false hnotMem]
    exact Std.ExtTreeMap.getElem?_empty
  | some v =>
    exact Std.ExtTreeMap.getElem?_insertMany_list_of_mem Std.ReflCmp.compare_self hdistinct
      (Std.ExtTreeMap.mem_toList_iff_getElem?_eq_some.mpr hk)

theorem zero_notMem_messageProperties2String {properties : Std.ExtTreeMap StdString StdString}
    (h : ∀ entry ∈ properties.toList, SeparableEntry entry) :
    0 ∉ messageProperties2String properties := by
  intro hzero
  obtain ⟨entry, hentry, hzero⟩ := List.mem_flatMap.mp hzero
  obtain ⟨-, hname, hvalue⟩ := h entry hentry
  simp only [List.mem_append, List.mem_singleton] at hzero
  rcases hzero with ((hzero | hzero) | hzero) | hzero
  · exact (hname 0 hzero).1 rfl
  · exact absurd hzero (by decide)
  · exact (hvalue 0 hzero).1 rfl
  · exact absurd hzero (by decide)

/-- Only the empty map has an empty block. -/
theorem length_messageProperties2String_eq_zero {properties : Std.ExtTreeMap StdString StdString} :
    (messageProperties2String properties).length = 0 ↔ properties.isEmpty := by
  have hlen : (messageProperties2String properties).length = 0 ↔ properties.toList.length = 0 := by
    have hge := two_mul_length_le properties.toList
    constructor
    · intro h
      change (properties.toList.flatMap fun entry ↦ entryText entry ++ [2]).length = 0 at h
      omega
    · intro h
      rw [messageProperties2String, List.length_eq_zero_iff.mp h]
      rfl
  rw [hlen, Std.ExtTreeMap.length_toList, Std.ExtTreeMap.isEmpty_eq_size_beq_zero, beq_iff_eq]

/-- **Property blocks**: reading back what was written gives the properties. -/
theorem string2messageProperties_messageProperties2String
    {properties : Std.ExtTreeMap StdString StdString}
    (h : ∀ entry ∈ properties.toList, SeparableEntry entry) :
    string2messageProperties (messageProperties2String properties) = properties := by
  have htext : messageProperties2String properties =
      properties.toList.flatMap fun entry ↦ entryText entry ++ [2] := rfl
  rw [htext, string2messageProperties_entries h, foldl_insert_toList]

/-! ### What is read -/

/-- When there are two parts and the first is not empty, the second has no delimiter. -/
theorem notMem_of_split_pair {delimiter : UInt8} {item name value : StdString}
    (hsplit : UtilAll.split item delimiter = [name, value]) (hname : name ≠ []) :
    delimiter ∉ value := by
  unfold UtilAll.split at hsplit
  cases hlen : item.length - 1 with
  | zero =>
    rw [hlen, UtilAll.splitLoop] at hsplit
    cases hsplit
  | succ passes =>
    rw [hlen] at hsplit
    cases hidx : item.idxOf? delimiter with
    | none =>
      rw [UtilAll.splitLoop, hidx] at hsplit
      cases hsplit
    | some right =>
      simp only [UtilAll.splitLoop, hidx, List.cons.injEq] at hsplit
      obtain ⟨hfirst, hsecond⟩ := hsplit
      have hright : right ≠ 0 := by
        rintro rfl
        exact hname (by rw [← hfirst, List.take_zero])
      cases passes with
      | zero =>
        -- two bytes: the first part and the delimiter are all there is
        rw [UtilAll.splitLoop, List.cons.injEq] at hsecond
        have hrest : (item.drop (right + 1)).length = 0 := by
          rw [List.length_drop]
          omega
        rw [← hsecond.1, List.length_eq_zero_iff.mp hrest]
        exact List.not_mem_nil
      | succ passes =>
        cases hidx' : (item.drop (right + 1)).idxOf? delimiter with
        | none =>
          rw [UtilAll.splitLoop, hidx'] at hsecond
          rw [← (List.cons.inj hsecond).1]
          exact List.idxOf?_eq_none_iff.mp hidx'
        | some right' =>
          simp only [UtilAll.splitLoop, hidx', List.cons.injEq] at hsecond
          exact absurd hsecond.2 (UtilAll.splitLoop_ne_nil _ _ _)

/-- A name and a value that stand for an entry: the value has neither separator. -/
theorem separable_of_split {s item name value : StdString} (hzero : 0 ∉ s)
    (hitem : item ∈ UtilAll.split s 2) (hsplit : UtilAll.split item 1 = [name, value])
    (hname : name ≠ []) : Separable value := by
  have hvalueMem : value ∈ UtilAll.split item 1 := by rw [hsplit]; simp
  have hitemSub : item ⊆ s := UtilAll.subset_of_mem_splitLoop hitem
  have hvalueSub : value ⊆ item := UtilAll.subset_of_mem_splitLoop hvalueMem
  have hone : 1 ∉ value := notMem_of_split_pair hsplit hname
  have htwo : 2 ∉ item := by
    rcases UtilAll.notMem_of_mem_splitLoop (by omega) hitem with hnot | rfl
    · exact hnot
    · cases hsplit
  intro b hb
  refine ⟨?_, ?_, ?_⟩
  · rintro rfl
    exact hzero (hitemSub (hvalueSub hb))
  · rintro rfl
    exact hone hb
  · rintro rfl
    exact htwo (hvalueSub hb)

/-- The value of a property with a name, as it was read, has no `NUL` and no separator. -/
theorem separable_of_string2messageProperties {s name value : StdString} (hzero : 0 ∉ s)
    (hname : name ≠ []) (hget : (string2messageProperties s)[name]? = some value) :
    Separable value := by
  unfold string2messageProperties at hget
  have hstart : ∀ value, (∅ : Std.ExtTreeMap StdString StdString)[name]? = some value →
      Separable value := by
    simp
  -- the items are put in one after another
  refine List.foldlRecOn (motive := fun properties ↦ ∀ value, properties[name]? = some value →
    Separable value) _ _ hstart (fun properties hgood item hitem value hget ↦ ?_) value hget
  split at hget
  · next first second hsplit =>
    simp only [Std.ExtTreeMap.getElem?_insert, Std.LawfulEqCmp.compare_eq_iff_eq] at hget
    split at hget
    · next heq =>
      cases hget
      exact separable_of_split hzero hitem hsplit (heq ▸ hname)
    · exact hgood value hget
  · exact hgood value hget

end MessageDecoder
end RocketMQ
