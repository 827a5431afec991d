import RocketMQ.Common.Validators
import RocketMQ.Message.DecodeRecords

/-!
# How long a topic may be

`Validators::checkTopic` lets a topic have up to 255 bytes, as many as its one-byte length can say.
`MessageDecoder::decode` reads that length as a `char`.
-/

namespace RocketMQ
namespace MessageDecoder

open Validators (checkTopic characterMaxLength)

namespace RawRecord

/-- Wherever the record stands, its topic comes out as it went in, and the offset that is reported
is the length of the record. -/
def DecodedIntact (inflate : StdString → Option StdString) (r : RawRecord) : Prop :=
  ∀ pre post, ∃ msg, decode inflate (pre ++ (r.bytes ++ post)) pre.length =
    .ok (some (msg, (r.bytes.length : Int))) ∧ msg.topic = r.topic

/-- All records of a batch are found, with their topics and at their places. -/
def AllFound (inflate : StdString → Option StdString) (records : List RawRecord) : Prop :=
  ∃ list, Decodes inflate (records.flatMap bytes) list ∧
    list.map (fun entry ↦ (entry.1.topic, entry.2)) =
      records.map fun r ↦ (r.topic, (r.bytes.length : Int))

section Topics

variable {inflate : StdString → Option StdString} {r : RawRecord}

theorem decodedIntact_iff (hle : r.topic.length ≤ 255) (hnul : 0 ∉ r.topic) :
    r.DecodedIntact inflate ↔ r.topic.length ≤ 127 := by
  constructor
  · intro h
    by_contra hlong
    obtain ⟨msg, hmsg, -⟩ := h [] []
    rw [r.decode_eq inflate hle, if_neg hlong] at hmsg
    split_ifs at hmsg
    cases hmsg
  · intro hshort pre post
    refine ⟨r.messageExt inflate, ?_, cstr_eq_self hnul⟩
    rw [r.decode_eq inflate hle, if_pos hshort, r.length_bytes]

theorem allFound_iff {records : List RawRecord} (hle : ∀ r ∈ records, r.topic.length ≤ 255)
    (hnul : ∀ r ∈ records, 0 ∉ r.topic) :
    AllFound inflate records ↔ ∀ r ∈ records, r.topic.length ≤ 127 := by
  constructor
  · rintro ⟨list, hlist, -⟩
    exact ((yields_iff inflate hle [] [] list).mp hlist).1
  · intro hshort
    refine ⟨_, (yields_iff inflate hle [] [] _).mpr ⟨hshort, rfl⟩, ?_⟩
    rw [List.nil_append, List.map_map]
    apply List.map_congr_left
    intro r hr
    exact Prod.ext (cstr_eq_self (hnul r hr)) r.length_bytes.symm

/-- **Topic lengths**: a record with a topic that `checkTopic` accepts is decoded with its topic and
its length, and all records of a batch are found, exactly up to topics of 127 bytes. -/
theorem checked_topics_decoded_iff (inflate : StdString → Option StdString)
    (records : List RawRecord) (hchecked : ∀ r ∈ records, checkTopic r.topic = .ok ())
    (hnul : ∀ r ∈ records, 0 ∉ r.topic) :
    (∀ r ∈ records, (r.DecodedIntact inflate ↔ r.topic.length ≤ 127)) ∧
      (AllFound inflate records ↔ ∀ r ∈ records, r.topic.length ≤ 127) := by
  have hle : ∀ r ∈ records, r.topic.length ≤ 255 := fun r hr ↦
    (Validators.checkTopic_eq_ok_iff.mp (hchecked r hr)).2.1
  exact ⟨fun r hr ↦ decodedIntact_iff (hle r hr) (hnul r hr), allFound_iff hle hnul⟩

end Topics

/-- A record that is empty but for its topic. -/
def ofTopic (topic : StdString) (h : topic.length ≤ 255) : RawRecord where
  magicCode := 0
  bodyCRC := 0
  queueId := 0
  flag := 0
  queueOffset := 0
  physicalOffset := 0
  sysFlag := 0
  bornTimestamp := 0
  bornHost := ⟨⟨[10, 0, 0, 1], 10911⟩, rfl, by decide⟩
  storeTimestamp := 0
  storeHost := ⟨⟨[10, 0, 0, 1], 10911⟩, rfl, by decide⟩
  reconsumeTimes := 0
  preparedTransactionOffset := 0
  body := []
  topic := topic
  properties := []
  properties_length := Nat.zero_le _
  size_lt := by
    rw [List.length_nil]
    omega

/-- A topic of one letter, again and again. -/
def letters (n : Nat) : StdString := List.replicate n 97

theorem length_letters (n : Nat) : (letters n).length = n := List.length_replicate

theorem nul_notMem_letters (n : Nat) : 0 ∉ letters n := fun h ↦
  absurd (List.eq_of_mem_replicate h) (by decide)

theorem checkTopic_letters {n : Nat} (h : 1 ≤ n ∧ n ≤ 255) : checkTopic (letters n) = .ok () := by
  refine Validators.LegalTopic.accepted ⟨?_, ?_, fun c hc ↦ ?_, fun hdefault ↦ ?_⟩
  · rw [length_letters]
    exact h.1
  · rw [length_letters]
    exact h.2
  · rw [List.eq_of_mem_replicate hc]
    rfl
  · have hmem : (84 : UInt8) ∈ letters n := hdefault ▸ by decide
    exact absurd (List.eq_of_mem_replicate hmem) (by decide)

/-- A record that is empty but for such a topic. -/
def ofLetters (n : Nat) (h : n ≤ 255) : RawRecord :=
  ofTopic (letters n) ((length_letters n).trans_le h)

/-- A topic of 128 bytes is accepted, and its record is not decoded. -/
theorem letters_not_decoded :
    checkTopic (letters 128) = .ok () ∧
      decode (fun _ ↦ none) (ofLetters 128 (by decide)).bytes 0 = .ok none ∧
      ¬ (ofLetters 128 (by decide)).DecodedIntact fun _ ↦ none := by
  have hlen : (ofLetters 128 (by decide)).topic.length = 128 := length_letters 128
  have hdecode := (ofLetters 128 (by decide)).decode_eq (fun _ ↦ none) (by omega) [] []
  rw [List.append_nil, if_neg (by omega), if_neg (by omega)] at hdecode
  refine ⟨checkTopic_letters (by decide), hdecode, fun h ↦ ?_⟩
  have hle := (decodedIntact_iff (by omega) (nul_notMem_letters 128)).mp h
  omega

/-- Of a batch with topics of 1 and of 255 bytes, only the first record is decoded. -/
theorem checked_topics_decoded_batch :
    (ofLetters 1 (by decide)).DecodedIntact (fun _ ↦ none) ∧
      ¬ AllFound (fun _ ↦ none) [ofLetters 1 (by decide), ofLetters 255 (by decide)] := by
  have h := checked_topics_decoded_iff (fun _ ↦ none)
    [ofLetters 1 (by decide), ofLetters 255 (by decide)]
    (List.forall_mem_cons.mpr ⟨checkTopic_letters (by decide),
      List.forall_mem_singleton.mpr (checkTopic_letters (by decide))⟩)
    (List.forall_mem_cons.mpr ⟨nul_notMem_letters 1,
      List.forall_mem_singleton.mpr (nul_notMem_letters 255)⟩)
  refine ⟨(h.1 _ List.mem_cons_self).mpr ((length_letters 1).trans_le (by decide)), fun hfound ↦ ?_⟩
  have hle := h.2.mp hfound _ (List.mem_cons_of_mem _ List.mem_cons_self)
  have hlen : (ofLetters 255 (by decide)).topic.length = 255 := length_letters 255
  omega

end RawRecord
end MessageDecoder
end RocketMQ
