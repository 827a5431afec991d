import RocketMQ.Protocol.CommandCustomHeader
import Std.Data.ExtTreeSet.Lemmas

/-!
# Subscriptions as JSON texts

`src/consumer/SubscriptionData.cpp`. A subscription is sent with every heartbeat as the text
that `encode` builds.
-/

namespace RocketMQ

open Base (Json intDigits)

/-- `SubscriptionData`. -/
structure SubscriptionData where
  topic : StdString
  subString : StdString
  tagsSet : Std.ExtTreeSet StdString
  codeSet : Std.ExtTreeSet Int
  subVersion : Int

namespace SubscriptionData

/-- `src/consumer/SubscriptionData.cpp:152–189`. Each element is followed by a comma, and the
last comma is taken off again. -/
def encode (d : SubscriptionData) : StdString :=
  let codeSet := (d.codeSet.toList.flatMap fun code ↦ intDigits code ++ str ",").dropLast
  let tagsSet := (d.tagsSet.toList.flatMap fun tag ↦ str "\"" ++ tag ++ str "\",").dropLast
  str "\x7b" ++ fieldName "codeSet" ++ str "[" ++ codeSet ++ str "]," ++
    fieldName "subString" ++ str "\"" ++ d.subString ++ str "\"," ++
    fieldName "subVersion" ++ intDigits d.subVersion ++ str "," ++
    fieldName "tagsSet" ++ str "[" ++ tagsSet ++ str "]," ++
    fieldName "topic" ++ str "\"" ++ d.topic ++ str "\"\x7d"

/-- The object that the text is meant to be. -/
def json (d : SubscriptionData) : Json :=
  .object [(str "codeSet", .array (d.codeSet.toList.map .int)),
    (str "subString", .string d.subString), (str "subVersion", .int d.subVersion),
    (str "tagsSet", .array (d.tagsSet.toList.map .string)), (str "topic", .string d.topic)]

/-- The string values of a subscription. -/
def strings (d : SubscriptionData) : List StdString :=
  d.topic :: d.subString :: d.tagsSet.toList

theorem codes_eq (d : SubscriptionData) :
    (d.codeSet.toList.flatMap fun code ↦ intDigits code ++ str ",") =
      (d.codeSet.toList.map Json.int).flatMap fun v ↦ Json.write v ++ [Json.comma] := by
  rw [List.flatMap_map]
  rfl

theorem tags_eq (d : SubscriptionData) :
    (d.tagsSet.toList.flatMap fun tag ↦ str "\"" ++ tag ++ str "\",") =
      (d.tagsSet.toList.map Json.string).flatMap fun v ↦ Json.write v ++ [Json.comma] := by
  rw [List.flatMap_map]
  apply List.flatMap_congr
  intro tag _
  rw [Json.write, Json.quoted, show str "\"" = [Json.quote] from rfl,
    show str "\"," = [Json.quote, Json.comma] from rfl]
  simp only [List.cons_append, List.nil_append, List.append_assoc]

/-- The text around the two arrays. -/
theorem write_members {codes tags : Json} {codeSet tagsSet : StdString}
    (subString topic : StdString) (subVersion : Int)
    (hcodes : Json.write codes = Json.openBracket :: (codeSet ++ [Json.closeBracket]))
    (htags : Json.write tags = Json.openBracket :: (tagsSet ++ [Json.closeBracket])) :
    str "\x7b" ++ fieldName "codeSet" ++ str "[" ++ codeSet ++ str "]," ++
      fieldName "subString" ++ str "\"" ++ subString ++ str "\"," ++
      fieldName "subVersion" ++ intDigits subVersion ++ str "," ++
      fieldName "tagsSet" ++ str "[" ++ tagsSet ++ str "]," ++
      fieldName "topic" ++ str "\"" ++ topic ++ str "\"\x7d" =
    Json.write (.object [(str "codeSet", codes), (str "subString", .string subString),
      (str "subVersion", .int subVersion), (str "tagsSet", tags),
      (str "topic", .string topic)]) := by
  simp only [show str "\x7b" = [Json.openBrace] from rfl,
    show str "[" = [Json.openBracket] from rfl,
    show str "]," = [Json.closeBracket, Json.comma] from rfl,
    show str "\"" = [Json.quote] from rfl, show str "\"," = [Json.quote, Json.comma] from rfl,
    show str "," = [Json.comma] from rfl,
    show str "\"\x7d" = [Json.quote, Json.closeBrace] from rfl]
  simp only [Json.write, Json.writeMembers, hcodes, htags, fieldName_eq, Json.quoted,
    List.append_assoc, List.cons_append, List.nil_append]

/-- A subscription is written as its object. -/
theorem encode_eq_write (d : SubscriptionData) : d.encode = Json.write d.json := by
  have htext := write_members d.subString d.topic d.subVersion
    (Json.write_array (d.codeSet.toList.map .int))
    (Json.write_array (d.tagsSet.toList.map .string))
  rw [← codes_eq, ← tags_eq] at htext
  exact htext

theorem plain_json_iff (d : SubscriptionData) :
    Json.Plain d.json.atoms ↔ ∀ s ∈ d.strings, Json.PlainString s := by
  have hcodeSet : PlainName "codeSet" := by decide
  have hsubString : PlainName "subString" := by decide
  have hsubVersion : PlainName "subVersion" := by decide
  have htagsSet : PlainName "tagsSet" := by decide
  have htopic : PlainName "topic" := by decide
  simp only [json, strings, Json.atoms, Json.memberAtoms, Json.elementAtoms_ints,
    Json.elementAtoms_strings, Json.plain_append, Json.plain_string_cons,
    Json.plain_strings_iff, hcodeSet, hsubString, hsubVersion, htagsSet, htopic,
    Json.plain_nil, List.forall_mem_cons, true_and, and_true]
  constructor
  · rintro ⟨hsub, htags, htopic⟩
    exact ⟨htopic, hsub, htags⟩
  · rintro ⟨htopic, hsub, htags⟩
    exact ⟨hsub, htags, htopic⟩

theorem integral_json (d : SubscriptionData) : Json.Integral d.json.atoms := by
  simp [json, Json.atoms, Json.memberAtoms, Json.elementAtoms_ints, Json.elementAtoms_strings,
    Json.Integral]

end SubscriptionData
end RocketMQ
