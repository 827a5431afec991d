import RocketMQ.Base.Substring
import RocketMQ.Common.MQException
import RocketMQ.Common.VirtualEnv
import RocketMQ.Consumer.SubscriptionData

/-!
# Parsing a subscription expression

`src/common/FilterAPI.h`, with the string functions of `src/common/UtilAll.h` that it uses. An
expression is a list of tags with `||` between them; white space around a tag is taken off, and a
piece of nothing else adds nothing.
-/

namespace RocketMQ

namespace UtilAll

/-- The loop of `Split` at a string, with the passes it has left, on what is behind `left`. -/
def splitStringLoop (delimiter : StdString) : Nat → StdString → List StdString
  | 0, rest => [rest]
  | passes + 1, rest =>
    match Base.find delimiter rest with
    | none => [rest]
    | some right =>
      rest.take right :: splitStringLoop delimiter passes (rest.drop (right + delimiter.length))

/-- `UtilAll::Split` at a string, `src/common/UtilAll.h:39–59`; the loop counter starts at 1. -/
def splitString (s delimiter : StdString) : List StdString :=
  splitStringLoop delimiter (s.length - 1) s

/-- `std::string::find_first_not_of`. -/
def findFirstNotOf (s chars : StdString) : Option Nat := s.findIdx? fun c ↦ !chars.contains c

/-- `std::string::find_last_not_of`, found from the end. -/
def findLastNotOf (s chars : StdString) : Option Nat :=
  (findFirstNotOf s.reverse chars).map fun fromEnd ↦ s.length - 1 - fromEnd

/-- `UtilAll::Trim`, `src/common/UtilAll.h:83–105`. -/
def trim (s : StdString) : StdString :=
  if s.isEmpty then s
  else
    match findFirstNotOf s whitespace with
    | none => []
    | some left =>
      match findLastNotOf s whitespace with
      | none => s.drop left
      | some right => (s.drop left).take (right + 1 - left)

/-- `UtilAll::stringHashCode`, `src/common/UtilAll.h:134–146`, on signed characters and with an
`int` that wraps around. -/
def stringHashCode (pData : StdString) (len : Int) : Int :=
  if len > 0 then
    (pData.take len.toNat).foldl (fun hash c ↦ toInt32 (31 * hash + c.toInt8.toInt)) 0
  else 0

/-! ### Splitting and trimming what was put together -/

section Split

variable {c : UInt8} {pattern s rest : StdString} {passes : Nat}

theorem splitStringLoop_of_notMem (passes : Nat) (h : c ∉ s) :
    splitStringLoop (c :: pattern) passes s = [s] := by
  cases passes with
  | zero => rfl
  | succ passes => rw [splitStringLoop, Base.find_eq_none_of_notMem h]

/-- One pass takes off what stands before the first delimiter. -/
theorem splitStringLoop_append (passes : Nat) (rest : StdString) (h : c ∉ s) :
    splitStringLoop (c :: pattern) (passes + 1) (s ++ (c :: pattern ++ rest)) =
      s :: splitStringLoop (c :: pattern) passes rest := by
  rw [splitStringLoop, Base.find_append h]
  dsimp only
  rw [List.take_left, ← List.drop_drop, List.drop_left, List.drop_left]

/-- With as many passes as delimiters the parts come apart as they were put together. -/
theorem splitStringLoop_intercalate {part : StdString} {parts : List StdString}
    (hparts : ∀ p ∈ part :: parts, c ∉ p) (hpasses : parts.length ≤ passes) :
    splitStringLoop (c :: pattern) passes (List.intercalate (c :: pattern) (part :: parts)) =
      part :: parts := by
  induction parts generalizing part passes with
  | nil =>
    rw [List.intercalate_singleton]
    exact splitStringLoop_of_notMem passes (hparts part List.mem_cons_self)
  | cons next parts ih =>
    obtain ⟨passes, rfl⟩ : ∃ n, passes = n + 1 :=
      ⟨passes - 1, by rw [List.length_cons] at hpasses; omega⟩
    obtain ⟨hpart, hrest⟩ := List.forall_mem_cons.mp hparts
    rw [List.intercalate_cons_cons, List.append_assoc, splitStringLoop_append passes _ hpart,
      ih hrest (Nat.le_of_succ_le_succ hpasses)]

theorem length_le_length_intercalate (delimiter part : StdString) (parts : List StdString) :
    parts.length * delimiter.length ≤ (List.intercalate delimiter (part :: parts)).length := by
  induction parts generalizing part with
  | nil => exact Nat.zero_mul delimiter.length ▸ Nat.zero_le _
  | cons next parts ih =>
    have hnext := ih next
    rw [List.intercalate_cons_cons, List.length_append, List.length_append, List.length_cons,
      Nat.succ_mul]
    omega

/-- With a delimiter of two characters the passes are always enough. -/
theorem splitString_intercalate {part : StdString} {parts : List StdString}
    (hparts : ∀ p ∈ part :: parts, c ∉ p) (hd : pattern.length = 1) :
    splitString (List.intercalate (c :: pattern) (part :: parts)) (c :: pattern) =
      part :: parts := by
  have hlen := length_le_length_intercalate (c :: pattern) part parts
  rw [List.length_cons, hd] at hlen
  exact splitStringLoop_intercalate hparts (by omega)

end Split

section Trim

variable {front tag behind s : StdString}

theorem findFirstNotOf_append {c : UInt8} (hfront : ∀ b ∈ front, b ∈ whitespace)
    (hc : c ∉ whitespace) : findFirstNotOf (front ++ c :: s) whitespace = some front.length := by
  have hskip : front.findIdx? (fun b ↦ !whitespace.contains b) = none := by
    rw [List.findIdx?_eq_none_iff]
    intro b hb
    simp [hfront b hb]
  rw [findFirstNotOf, List.findIdx?_append, hskip, List.findIdx?_cons, if_pos (by simp [hc])]
  simp

theorem trim_of_blank (h : ∀ b ∈ s, b ∈ whitespace) : trim s = [] := by
  have hnone : findFirstNotOf s whitespace = none := by
    rw [findFirstNotOf, List.findIdx?_eq_none_iff]
    intro b hb
    simp [h b hb]
  rw [trim, hnone]
  split_ifs with hempty
  · exact List.isEmpty_iff.mp hempty
  · rfl

/-- A text that is not blank, without white space at its ends. -/
structure Trimmed (tag : StdString) : Prop where
  first : ∃ c rest, tag = c :: rest ∧ c ∉ whitespace
  last : ∃ rest c, tag = rest ++ [c] ∧ c ∉ whitespace

/-- White space around a text is taken off. -/
theorem trim_append (htag : Trimmed tag) (hfront : ∀ b ∈ front, b ∈ whitespace)
    (hbehind : ∀ b ∈ behind, b ∈ whitespace) : trim (front ++ tag ++ behind) = tag := by
  have hleft : findFirstNotOf (front ++ tag ++ behind) whitespace = some front.length := by
    obtain ⟨c, rest, rfl, hc⟩ := htag.first
    rw [List.append_assoc]
    exact findFirstNotOf_append hfront hc
  have hright : findLastNotOf (front ++ tag ++ behind) whitespace =
      some (front.length + tag.length - 1) := by
    obtain ⟨rest, c, rfl, hc⟩ := htag.last
    have hreverse : (front ++ (rest ++ [c]) ++ behind).reverse =
        behind.reverse ++ c :: (front ++ rest).reverse := by
      simp
    rw [findLastNotOf, hreverse, findFirstNotOf_append (by simpa using hbehind) hc, Option.map_some]
    congr 1
    simp only [List.length_append, List.length_reverse]
    omega
  have hpos : 0 < tag.length := by
    obtain ⟨c, rest, rfl, -⟩ := htag.first
    exact Nat.succ_pos _
  have hne : (front ++ tag ++ behind).isEmpty = false := by
    rw [← Bool.not_eq_true, List.isEmpty_iff, ← List.length_eq_zero_iff, List.length_append,
      List.length_append]
    omega
  have hlen : front.length + tag.length - 1 + 1 - front.length = tag.length := by omega
  rw [trim, hne, hleft, hright]
  dsimp only
  rw [if_neg Bool.false_ne_true, hlen, List.append_assoc, List.drop_left, List.take_left]

end Trim

/-- What wraps around at each step may as well wrap around once at the end. -/
theorem foldl_toInt32 (s : StdString) (hash : Int) :
    s.foldl (fun hash c ↦ toInt32 (31 * hash + c.toInt8.toInt)) (toInt32 hash) =
      toInt32 (s.foldl (fun hash c ↦ 31 * hash + c.toInt8.toInt) hash) := by
  induction s generalizing hash with
  | nil => rfl
  | cons c s ih =>
    have hstep : toInt32 (31 * toInt32 hash + c.toInt8.toInt) =
        toInt32 (31 * hash + c.toInt8.toInt) := by
      rw [toInt32, toInt32, toInt32, ← Int.bmod_add_bmod, Int.mul_bmod_bmod, Int.bmod_add_bmod]
    rw [List.foldl_cons, List.foldl_cons, hstep, ih]

/-- `stringHashCode` is Horner's rule with a 32-bit wrap-around. -/
theorem stringHashCode_eq {s : StdString} (hlen : s.length < 2 ^ 31) :
    stringHashCode s (toInt32 s.length) =
      toInt32 (s.foldl (fun hash c ↦ 31 * hash + c.toInt8.toInt) 0) := by
  rw [toInt32_of_range (by omega) (by omega), stringHashCode]
  split_ifs with hpos
  · rw [Int.toNat_natCast, List.take_length]
    exact foldl_toInt32 s 0
  · have hnil : s = [] := List.eq_nil_of_length_eq_zero (by omega)
    rw [hnil]
    rfl

end UtilAll

/-! ### Building a subscription -/

namespace SubscriptionData

/-- `SubscriptionData::SUB_ALL`. -/
def subAll : StdString := str "*"

/-- A tag that is not empty is put into both sets, `src/common/FilterAPI.h:50–61`. -/
def addTag (subscriptionData : SubscriptionData) (tag : StdString) : SubscriptionData :=
  if !tag.isEmpty then
    let trimString := UtilAll.trim tag
    if !trimString.isEmpty then
      { subscriptionData with
        tagsSet := subscriptionData.tagsSet.insert trimString
        codeSet := subscriptionData.codeSet.insert
          (UtilAll.stringHashCode trimString (toInt32 trimString.length)) }
    else subscriptionData
  else subscriptionData

end SubscriptionData

namespace FilterAPI

open SubscriptionData (subAll addTag)

/-- `FilterAPI::buildSubscriptionData`, `src/common/FilterAPI.h:28–66`; the version is the time of
the constructor. -/
def buildSubscriptionData (currentTimeMillis : Int) (topic subString : StdString) :
    Except MQException SubscriptionData :=
  let subscriptionData : SubscriptionData := ⟨topic, subString, ∅, ∅, currentTimeMillis⟩
  if subString.isEmpty ∨ subString = subAll then .ok { subscriptionData with subString := subAll }
  else
    let out := UtilAll.splitString subString (str "||")
    if out.isEmpty then .error (.client (str "FilterAPI subString split error") (-1))
    else .ok (out.foldl addTag subscriptionData)

/-! ### The tags of an expression -/

/-- What stands between two delimiters: a tag with white space around it, or no tag. -/
structure Piece where
  front : StdString
  tag : StdString
  behind : StdString
  front_blank : ∀ b ∈ front, b ∈ whitespace
  trimmed : tag ≠ [] → UtilAll.Trimmed tag
  bar_notMem_tag : 124 ∉ tag
  behind_blank : ∀ b ∈ behind, b ∈ whitespace

namespace Piece

/-- The piece as it is written. -/
def text (p : Piece) : StdString := p.front ++ p.tag ++ p.behind

end Piece

/-- The pieces joined by `||`. -/
def expression (pieces : List Piece) : StdString :=
  List.intercalate (str "||") (pieces.map Piece.text)

/-- The tags in the pieces. -/
def tags (pieces : List Piece) : List StdString := (pieces.map Piece.tag).filter fun tag ↦ tag ≠ []

/-- The hash code of a tag. -/
def code (tag : StdString) : Int := UtilAll.stringHashCode tag (toInt32 tag.length)

/-- Horner's rule at 31 on the signed characters of a text, without a bound. -/
def horner (s : StdString) : Int := s.foldl (fun hash c ↦ 31 * hash + c.toInt8.toInt) 0

section Parsing

variable {pieces : List Piece}

theorem bar_notMem_whitespace : (124 : UInt8) ∉ whitespace := by decide

theorem Piece.bar_notMem_text (p : Piece) : 124 ∉ p.text := by
  rw [text, List.mem_append, List.mem_append]
  rintro ((hfront | htag) | hbehind)
  · exact bar_notMem_whitespace (p.front_blank _ hfront)
  · exact p.bar_notMem_tag htag
  · exact bar_notMem_whitespace (p.behind_blank _ hbehind)

theorem Piece.trim_text (p : Piece) : UtilAll.trim p.text = p.tag := by
  by_cases hempty : p.tag = []
  · rw [hempty, text, hempty, List.append_nil]
    apply UtilAll.trim_of_blank
    intro b hb
    rcases List.mem_append.mp hb with hfront | hbehind
    · exact p.front_blank b hfront
    · exact p.behind_blank b hbehind
  · exact UtilAll.trim_append (p.trimmed hempty) p.front_blank p.behind_blank

/-- The expression is split into its pieces. -/
theorem splitString_expression (hne : pieces ≠ []) :
    UtilAll.splitString (expression pieces) (str "||") = pieces.map Piece.text := by
  obtain ⟨p, pieces, rfl⟩ := List.exists_cons_of_ne_nil hne
  refine UtilAll.splitString_intercalate (c := 124) ?_ rfl
  intro text htext
  obtain ⟨p, -, rfl⟩ := List.mem_map.mp (List.map_cons ▸ htext)
  exact p.bar_notMem_text

/-- What a piece adds. -/
theorem addTag_text (d : SubscriptionData) (p : Piece) :
    addTag d p.text = if p.tag = [] then d else
      { d with tagsSet := d.tagsSet.insert p.tag, codeSet := d.codeSet.insert (code p.tag) } := by
  rw [addTag, p.trim_text]
  by_cases hempty : p.tag = []
  · simp [hempty]
  · have hne : p.text ≠ [] := fun hnil ↦ hempty (by simp_all [Piece.text])
    simp [hempty, hne, code]

theorem tags_cons (p : Piece) (pieces : List Piece) :
    tags (p :: pieces) = if p.tag = [] then tags pieces else p.tag :: tags pieces := by
  rw [tags, List.map_cons, List.filter_cons]
  split_ifs with hne hempty hempty
  · exact absurd hempty (of_decide_eq_true hne)
  · rfl
  · rfl
  · exact absurd (decide_eq_true hempty) hne

/-- What all of them add to the tags. -/
theorem mem_tagsSet_foldl (pieces : List Piece) (d : SubscriptionData) (tag : StdString) :
    tag ∈ ((pieces.map Piece.text).foldl addTag d).tagsSet ↔
      tag ∈ d.tagsSet ∨ tag ∈ tags pieces := by
  induction pieces generalizing d with
  | nil => exact (or_iff_left List.not_mem_nil).symm
  | cons p pieces ih =>
    rw [List.map_cons, List.foldl_cons, ih, addTag_text, tags_cons]
    split_ifs with hempty
    · rfl
    · rw [Std.ExtTreeSet.mem_insert, List.mem_cons, Std.LawfulEqOrd.compare_eq_iff_eq, or_assoc,
        or_left_comm, eq_comm]

/-- And to the codes. -/
theorem mem_codeSet_foldl (pieces : List Piece) (d : SubscriptionData) (hash : Int) :
    hash ∈ ((pieces.map Piece.text).foldl addTag d).codeSet ↔
      hash ∈ d.codeSet ∨ ∃ tag ∈ tags pieces, code tag = hash := by
  induction pieces generalizing d with
  | nil => exact (or_iff_left (by simp [tags])).symm
  | cons p pieces ih =>
    rw [List.map_cons, List.foldl_cons, ih, addTag_text, tags_cons]
    split_ifs with hempty
    · rfl
    · rw [Std.ExtTreeSet.mem_insert, List.exists_mem_cons_iff, Std.LawfulEqOrd.compare_eq_iff_eq,
        or_assoc, or_left_comm]

/-- An expression of nothing has no tags. -/
theorem tags_of_expression_eq_nil (h : expression pieces = []) : tags pieces = [] := by
  rw [tags, List.filter_eq_nil_iff]
  intro tag htag
  obtain ⟨p, hp, rfl⟩ := List.mem_map.mp htag
  have hsplit := splitString_expression (List.ne_nil_of_mem hp)
  rw [h] at hsplit
  have hone : pieces.map Piece.text = [[]] := hsplit.symm
  have htext : p.text ∈ [[]] := hone ▸ List.mem_map_of_mem hp
  have hnil : p.tag = [] := by
    have hboth := List.append_eq_nil_iff.mp (List.mem_singleton.mp htext)
    exact (List.append_eq_nil_iff.mp hboth.1).2
  simp [hnil]

/-- **Subscription expressions**: the tags set holds the tags of the pieces, and the code set their
hash codes, which are Horner's rule wrapped around at 32 bits. -/
theorem buildSubscriptionData_tags (currentTimeMillis : Int) (topic : StdString)
    (pieces : List Piece) (hstar : expression pieces ≠ subAll) :
    ∃ d, buildSubscriptionData currentTimeMillis topic (expression pieces) = .ok d ∧
      (∀ tag, tag ∈ d.tagsSet ↔ tag ∈ tags pieces) ∧
      (∀ hash, hash ∈ d.codeSet ↔ ∃ tag ∈ d.tagsSet, code tag = hash) ∧
      ∀ tag ∈ d.tagsSet, tag.length < 2 ^ 31 → code tag = toInt32 (horner tag) := by
  have hrule {tag : StdString} (hlen : tag.length < 2 ^ 31) : code tag = toInt32 (horner tag) :=
    UtilAll.stringHashCode_eq hlen
  rw [buildSubscriptionData]
  by_cases hempty : expression pieces = []
  · rw [if_pos (.inl (List.isEmpty_iff.mpr hempty))]
    refine ⟨_, rfl, fun tag ↦ ?_, fun hash ↦ ?_, fun _ _ hlen ↦ hrule hlen⟩
    · rw [tags_of_expression_eq_nil hempty]
      simp
    · simp
  · have hpieces : pieces ≠ [] := fun hnil ↦ hempty (by rw [hnil]; rfl)
    have hout : (pieces.map Piece.text).isEmpty = false := by simp [hpieces]
    rw [if_neg (not_or.mpr ⟨mt List.isEmpty_iff.mp hempty, hstar⟩)]
    dsimp only
    rw [splitString_expression hpieces, hout, if_neg Bool.false_ne_true]
    have htags (tag : StdString) := mem_tagsSet_foldl pieces
      ⟨topic, expression pieces, ∅, ∅, currentTimeMillis⟩ tag
    have hcodes (hash : Int) := mem_codeSet_foldl pieces
      ⟨topic, expression pieces, ∅, ∅, currentTimeMillis⟩ hash
    simp only [Std.ExtTreeSet.not_mem_empty, false_or] at htags hcodes
    refine ⟨_, rfl, htags, fun hash ↦ ?_, fun _ _ hlen ↦ hrule hlen⟩
    rw [hcodes]
    exact exists_congr fun tag ↦ and_congr_left fun _ ↦ (htags tag).symm

end Parsing

/-- A tag of one letter with white space behind it. -/
def letter (c : UInt8) (hc : c ∉ str " \t\r\n|") (behind : StdString)
    (hbehind : ∀ b ∈ behind, b ∈ whitespace) : Piece where
  front := []
  tag := [c]
  behind := behind
  front_blank := nofun
  trimmed := fun _ ↦
    have hspace : c ∉ whitespace := fun h ↦ hc (List.mem_append_left [124] h)
    ⟨⟨c, [], rfl, hspace⟩, ⟨[], c, rfl, hspace⟩⟩
  bar_notMem_tag := fun h ↦ hc (List.mem_singleton.mp h ▸ by decide)
  behind_blank := hbehind

theorem space_blank : ∀ b ∈ str " ", b ∈ whitespace := by
  have hfirst : str " " <+: whitespace := ⟨str "\t\r\n", by decide⟩
  exact fun b hb ↦ hfirst.subset hb

/-- A piece of white space. -/
def blank : Piece where
  front := str " "
  tag := []
  behind := []
  front_blank := space_blank
  trimmed := fun h ↦ absurd rfl h
  bar_notMem_tag := List.not_mem_nil
  behind_blank := nofun

/-- The pieces of `A ||B|| ||A`. -/
def twice : List Piece :=
  [letter 65 (by decide) (str " ") space_blank, letter 66 (by decide) [] nofun, blank,
    letter 65 (by decide) [] nofun]

/-- They have the tags `A` and `B`. -/
theorem buildSubscriptionData_tags_twice :
    ∃ d, buildSubscriptionData 0 (str "t") (str "A ||B|| ||A") = .ok d ∧
      (∀ tag, tag ∈ d.tagsSet ↔ tag ∈ [str "A", str "B", str "A"]) ∧
      (∀ hash, hash ∈ d.codeSet ↔ ∃ tag ∈ d.tagsSet, code tag = hash) ∧
      ∀ tag ∈ d.tagsSet, tag.length < 2 ^ 31 → code tag = toInt32 (horner tag) :=
  buildSubscriptionData_tags 0 (str "t") twice (by decide)

end FilterAPI
end RocketMQ
