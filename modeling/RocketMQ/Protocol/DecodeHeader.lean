import RocketMQ.Factory.TopicRoute
import RocketMQ.Protocol.DecodeFrame

/-!
# Decoding the custom header of a response

`src/protocol/CommandCustomHeader.cpp`. The `Decode` functions parse the header text once more
and take their fields out of `extFields` one after another. `asCString` asserts that a field is
a string, and `std::stoll` throws when it is no number.
-/

namespace RocketMQ

open Base (Json)
open Protocol.RemotingCommand (JsonLibrary member asString cString HasMembers)

namespace Protocol

/-! ### Fields -/

/-- `Value::asCString`. -/
def asCString : Json → Option StdString
  | .string s => some (cString s)
  | .null | .bool _ | .int _ | .decimal _ | .array _ | .object _ => none

/-- `Value::isNull`. -/
def isNull : Json → Bool
  | .null => true
  | .bool _ | .int _ | .decimal _ | .string _ | .array _ | .object _ => false

/-- `begin() != end()`. -/
def hasElements : Json → Bool
  | .array elements => !elements.isEmpty
  | .object members => !members.isEmpty
  | .null | .bool _ | .int _ | .decimal _ | .string _ => false

/-- `str2ll`, `src/kpr/KPRUtil.cpp:46–50`; `none` when `std::stoll` throws. -/
def str2ll (s : StdString) : Option Int :=
  let isSpace (b : UInt8) : Bool := b = 32 ∨ (9 ≤ b ∧ b ≤ 13)
  let digits := match s.dropWhile isSpace with
    | 45 :: digits => digits
    | 43 :: digits => digits
    | digits => digits
  if digits.head?.any Base.isDigit ∧ -2 ^ 63 ≤ leadingNumber s ∧ leadingNumber s < 2 ^ 63 then
    some (leadingNumber s)
  else none

/-- `value[name]`. -/
def memberAt (value : Json) (name : String) : Except Fault Json :=
  require .aborted (member value (str name))

/-- `ext[name].asCString()`. -/
def cStringAt (ext : Json) (name : String) : Except Fault StdString := do
  require .aborted (asCString (← memberAt ext name))

/-- `str2ll(ext[name].asCString())`. -/
def str2llAt (ext : Json) (name : String) : Except Fault Int := do
  require .raised (str2ll (← cStringAt ext name))

end Protocol

open Protocol

/-! ### Headers -/

/-- `src/protocol/CommandCustomHeader.cpp:147–170`. -/
def SendMessageResponseHeader.decode (lib : JsonLibrary) (text : StdString) :
    Except Fault (Option SendMessageResponseHeader) :=
  match lib.parse text with
  | none => .ok none
  | some object => do
    let ext ← memberAt object "extFields"
    let msgId ← require .raised (asString (← memberAt ext "msgId"))
    let queueId := atoi (← cStringAt ext "queueId")
    let queueOffset ← str2llAt ext "queueOffset"
    return some ⟨msgId, queueId, queueOffset⟩

/-- `src/protocol/CommandCustomHeader.cpp:225–248`. -/
def PullMessageResponseHeader.decode (lib : JsonLibrary) (text : StdString) :
    Except Fault (Option PullMessageResponseHeader) :=
  match lib.parse text with
  | none => .ok none
  | some object => do
    let ext ← memberAt object "extFields"
    let suggestWhichBrokerId ← str2llAt ext "suggestWhichBrokerId"
    let nextBeginOffset ← str2llAt ext "nextBeginOffset"
    let minOffset ← str2llAt ext "minOffset"
    let maxOffset ← str2llAt ext "maxOffset"
    return some ⟨suggestWhichBrokerId, nextBeginOffset, minOffset, maxOffset⟩

/-- `src/protocol/CommandCustomHeader.cpp:373–407`. The remark is converted to be printed. -/
def QueryConsumerOffsetResponseHeader.decode (lib : JsonLibrary) (text : StdString) :
    Except Fault (Option QueryConsumerOffsetResponseHeader) :=
  match lib.parse text with
  | none => .ok none
  | some object => do
    let ext ← memberAt object "extFields"
    if hasElements ext then
      let offsetValue ← memberAt ext "offset"
      if isNull offsetValue then return some ⟨-1⟩
      else return some ⟨← str2llAt ext "offset"⟩
    else
      let _ ← require .raised (asString (← memberAt object "remark"))
      return some ⟨-1⟩

/-! ### The header of a response -/

def sendMessageValue : Int32 := 10
def pullMessageValue : Int32 := 11
def queryConsumerOffsetValue : Int32 := 14

/-- `src/protocol/CommandCustomHeader.cpp:26–46`. -/
def CommandCustomHeader.decode (lib : JsonLibrary) (code : Int32) (text : StdString)
    (isResponseType : Bool) : Except Fault (Option CommandCustomHeader) :=
  if isResponseType then
    if code = sendMessageValue then
      (SendMessageResponseHeader.decode lib text).map (·.map .sendMessageResponse)
    else if code = pullMessageValue then
      (PullMessageResponseHeader.decode lib text).map (·.map .pullMessageResponse)
    else if code = queryConsumerOffsetValue then
      (QueryConsumerOffsetResponseHeader.decode lib text).map (·.map .queryConsumerOffsetResponse)
    else .ok none
  else .ok none

namespace Protocol.RemotingCommand

/-- `src/protocol/RemotingCommand.cpp:213–217`: the lowest bit of the flag. -/
def isResponseType (cmd : RemotingCommand) : Bool := cmd.flag &&& 1 = 1

/-- `src/protocol/RemotingCommand.cpp:244–253`. -/
def makeCustomHeader (lib : JsonLibrary) (code : Int32) (pData : StdString)
    (cmd : RemotingCommand) : Except Fault RemotingCommand := do
  if fieldName "extFields" <:+: headerTextOf pData then
    let customHeader ←
      CommandCustomHeader.decode lib code (headerTextOf pData) cmd.isResponseType
    return { cmd with customHeader }
  else return cmd

end Protocol.RemotingCommand

/-! ### Fields that can be read -/

namespace Protocol

/-- A field that is there. -/
def Present (ext : Json) (name : String) : Prop :=
  ∃ value ∈ member ext (str name), isNull value = false

/-- A field that is a string. -/
def IsString (ext : Json) (name : String) : Prop :=
  ∃ s, member ext (str name) = some (.string s)

/-- A field that is a string with a number in it. -/
def IsNumber (ext : Json) (name : String) : Prop :=
  ∃ s, member ext (str name) = some (.string s) ∧ (str2ll (cString s)).isSome

/-- A field that can be converted to a string. -/
def IsText (ext : Json) (name : String) : Prop :=
  ∃ value ∈ member ext (str name), (asString value).isSome

/-- What fails, if anything, is an exception. -/
def Survives {α : Type} (a : Except Fault α) : Prop := ∀ fault, a = .error fault → fault = .raised

section Fields

variable {α β : Type} {ext : Json} {name : String}

theorem survives_ok (a : α) : Survives (.ok a : Except Fault α) := nofun

theorem survives_raised : Survives (.error .raised : Except Fault α) := by
  rintro _ ⟨⟩
  rfl

theorem not_survives_aborted : ¬ Survives (.error .aborted : Except Fault α) :=
  fun h ↦ absurd (h _ rfl) (by decide)

theorem survives_raised_of (o : Option α) : Survives (require .raised o) := by
  cases o with
  | none => exact survives_raised
  | some a => exact survives_ok a

/-- One step after another. -/
theorem survives_bind {a : Except Fault α} {f : α → Except Fault β} :
    Survives (a >>= f) ↔ Survives a ∧ ∀ b, a = .ok b → Survives (f b) := by
  cases a with
  | ok a =>
    rw [RemotingCommand.bind_ok]
    constructor
    · intro h
      refine ⟨survives_ok a, ?_⟩
      rintro _ ⟨⟩
      exact h
    · exact fun h ↦ h.2 a rfl
  | error fault =>
    rw [RemotingCommand.bind_error]
    constructor
    · exact fun h ↦ ⟨fun fault' hfault ↦ h fault' (by cases hfault; rfl), nofun⟩
    · exact fun h fault' hfault ↦ h.1 fault' (by cases hfault; rfl)

theorem survives_map {a : Except Fault α} (f : α → β) : Survives (a.map f) ↔ Survives a := by
  cases a with
  | ok a => exact iff_of_true (survives_ok _) (survives_ok _)
  | error fault => exact ⟨fun h _ hfault ↦ h _ (by cases hfault; rfl),
      fun h _ hfault ↦ h _ (by cases hfault; rfl)⟩

theorem map_eq_ok {a : Except Fault α} {f : α → β} {b : β} :
    a.map f = .ok b ↔ ∃ c, a = .ok c ∧ f c = b := by
  cases a with
  | ok a => simp [Except.map]
  | error fault => simp [Except.map]

theorem bind_eq_ok {a : Except Fault α} {f : α → Except Fault β} {b : β} :
    (a >>= f) = .ok b ↔ ∃ c, a = .ok c ∧ f c = .ok b := by
  cases a with
  | ok a => simp [RemotingCommand.bind_ok]
  | error fault => simp [RemotingCommand.bind_error]

theorem require_eq_ok {fault : Fault} {o : Option α} {a : α} :
    require fault o = .ok a ↔ o = some a := by
  cases o with
  | none => simp
  | some b => simp

theorem memberAt_eq_ok {value : Json} :
    memberAt ext name = .ok value ↔ member ext (str name) = some value :=
  require_eq_ok

theorem survives_memberAt : Survives (memberAt ext name) ↔ HasMembers ext := by
  unfold memberAt
  by_cases hmembers : HasMembers ext
  · obtain ⟨value, hvalue⟩ := hmembers.exists_member (str name)
    rw [hvalue]
    exact iff_of_true (survives_ok value) hmembers
  · rw [RemotingCommand.member_of_not_hasMembers hmembers]
    exact iff_of_false not_survives_aborted hmembers

theorem IsString.present (h : IsString ext name) : Present ext name := by
  obtain ⟨s, hs⟩ := h
  exact ⟨_, hs, rfl⟩

theorem IsNumber.isString (h : IsNumber ext name) : IsString ext name := by
  obtain ⟨s, hs, -⟩ := h
  exact ⟨s, hs⟩

theorem IsNumber.present (h : IsNumber ext name) : Present ext name := h.isString.present

theorem cStringAt_eq_ok {s : StdString} :
    cStringAt ext name = .ok s ↔
      ∃ t, member ext (str name) = some (.string t) ∧ cString t = s := by
  unfold cStringAt
  rw [bind_eq_ok]
  simp only [memberAt_eq_ok, require_eq_ok]
  constructor
  · rintro ⟨value, hvalue, hs⟩
    cases value with
    | string t => exact ⟨t, hvalue, Option.some.inj hs⟩
    | null | bool | int | decimal | array | object => cases hs
  · rintro ⟨t, ht, rfl⟩
    exact ⟨_, ht, rfl⟩

theorem survives_cStringAt : Survives (cStringAt ext name) ↔ IsString ext name := by
  constructor
  · intro h
    unfold cStringAt at h
    rw [survives_bind, survives_memberAt] at h
    obtain ⟨hmembers, hstring⟩ := h
    obtain ⟨value, hvalue⟩ := hmembers.exists_member (str name)
    have hvalue' := hstring value (memberAt_eq_ok.mpr hvalue)
    cases value with
    | string s => exact ⟨s, hvalue⟩
    | null | bool | int | decimal | array | object => exact absurd hvalue' not_survives_aborted
  · rintro ⟨s, hs⟩
    rw [cStringAt_eq_ok.mpr ⟨s, hs, rfl⟩]
    exact survives_ok _

theorem str2llAt_eq_ok {n : Int} :
    str2llAt ext name = .ok n ↔
      ∃ s, member ext (str name) = some (.string s) ∧ str2ll (cString s) = some n := by
  unfold str2llAt
  rw [bind_eq_ok]
  simp only [cStringAt_eq_ok, require_eq_ok]
  constructor
  · rintro ⟨_, ⟨t, ht, rfl⟩, hn⟩
    exact ⟨t, ht, hn⟩
  · rintro ⟨t, ht, hn⟩
    exact ⟨_, ⟨t, ht, rfl⟩, hn⟩

theorem survives_str2llAt : Survives (str2llAt ext name) ↔ IsString ext name := by
  unfold str2llAt
  rw [survives_bind, survives_cStringAt]
  exact and_iff_left fun _ _ ↦ survives_raised_of _

theorem isNumber_iff : IsNumber ext name ↔ ∃ n, str2llAt ext name = .ok n := by
  simp only [str2llAt_eq_ok, IsNumber, Option.isSome_iff_exists]
  constructor
  · rintro ⟨s, hs, n, hn⟩
    exact ⟨n, s, hs, hn⟩
  · rintro ⟨n, s, hs, hn⟩
    exact ⟨s, hs, n, hn⟩

/-- Reading a number, and then more. -/
theorem survives_str2llAt_bind {f : Int → Except Fault β} {P : Prop}
    (hf : ∀ n, Survives (f n) ↔ P) :
    Survives (str2llAt ext name >>= f) ↔ IsString ext name ∧ (IsNumber ext name → P) := by
  rw [survives_bind, survives_str2llAt, isNumber_iff]
  simp only [hf, forall_exists_index]

/-- Reading the last number. -/
theorem survives_str2llAt_map (f : Int → β) :
    Survives (str2llAt ext name >>= fun n ↦ pure (f n)) ↔ IsString ext name := by
  have hread : ∀ n, Survives (pure (f n) : Except Fault β) ↔ True :=
    fun n ↦ iff_of_true (survives_ok (f n)) trivial
  rw [survives_str2llAt_bind hread]
  exact and_iff_left fun _ ↦ trivial

/-- Reading a string, and then more. -/
theorem survives_cStringAt_bind {f : StdString → Except Fault β} {P : Prop}
    (hf : ∀ s, Survives (f s) ↔ P) :
    Survives (cStringAt ext name >>= f) ↔ IsString ext name ∧ P := by
  rw [survives_bind, survives_cStringAt]
  apply and_congr_right
  intro hstring
  obtain ⟨s, hs⟩ := hstring
  constructor
  · exact fun h ↦ (hf _).mp (h _ (cStringAt_eq_ok.mpr ⟨s, hs, rfl⟩))
  · exact fun h t _ ↦ (hf t).mpr h

/-- Reading what is converted to a string, and then more. -/
theorem survives_asString_bind {f : StdString → Except Fault β} {P : Prop}
    (hf : ∀ s, Survives (f s) ↔ P) :
    Survives (memberAt ext name >>= fun value ↦ require .raised (asString value) >>= f) ↔
      HasMembers ext ∧ (IsText ext name → P) := by
  rw [survives_bind, survives_memberAt]
  apply and_congr_right
  intro hmembers
  obtain ⟨value, hvalue⟩ := hmembers.exists_member (str name)
  have htext : IsText ext name ↔ (asString value).isSome := by
    simp [IsText, hvalue]
  constructor
  · intro h hsome
    obtain ⟨s, hs⟩ := Option.isSome_iff_exists.mp (htext.mp hsome)
    have hafter := h value (memberAt_eq_ok.mpr hvalue)
    rw [hs] at hafter
    exact (hf s).mp hafter
  · intro h value' hvalue'
    obtain rfl := Option.some.inj (hvalue.symm.trans (memberAt_eq_ok.mp hvalue'))
    cases hs : asString value with
    | none => exact survives_raised
    | some s => exact (hf s).mpr (h (htext.mpr (by rw [hs]; rfl)))

end Fields

end Protocol

/-! ### Headers that can be read -/

section Headers

variable {lib : JsonLibrary} {text : StdString} {object ext : Json}

namespace SendMessageResponseHeader

/-- The fields of a header whose message id, or else whose numbers, are of the right type. -/
def Readable (ext : Json) : Prop :=
  HasMembers ext ∧ (IsText ext "msgId" → IsString ext "queueId" ∧ IsString ext "queueOffset")

theorem survives_decode (hparse : lib.parse text = some object)
    (hext : member object (str "extFields") = some ext) :
    Survives (decode lib text) ↔ Readable ext := by
  unfold decode
  rw [hparse]
  dsimp only
  rw [memberAt_eq_ok.mpr hext, RemotingCommand.bind_ok]
  exact survives_asString_bind fun msgId ↦ survives_cStringAt_bind fun queueId ↦
    survives_str2llAt_map _

/-- A header that was read has its numbers. -/
theorem eq_some_of_decode {r : Option SendMessageResponseHeader}
    (hparse : lib.parse text = some object)
    (hext : member object (str "extFields") = some ext) (h : decode lib text = .ok r) :
    (∃ header, r = some header) ∧ IsString ext "queueId" ∧ IsNumber ext "queueOffset" := by
  unfold decode at h
  rw [hparse] at h
  dsimp only at h
  rw [memberAt_eq_ok.mpr hext, RemotingCommand.bind_ok] at h
  simp only [bind_eq_ok] at h
  obtain ⟨_, -, _, -, _, hqueueId, queueOffset, hqueueOffset, hr⟩ := h
  refine ⟨⟨_, (Except.ok.inj hr).symm⟩, ?_, isNumber_iff.mpr ⟨_, hqueueOffset⟩⟩
  rw [← survives_cStringAt, hqueueId]
  exact survives_ok _

/-- A header without a message id is read as one with an empty message id. -/
theorem exists_decode_of_absent (hparse : lib.parse text = some object)
    (hext : member object (str "extFields") = some ext) (hreadable : Readable ext)
    (habsent : ¬ Present ext "msgId") (hnumber : IsNumber ext "queueOffset") :
    ∃ header, decode lib text = .ok (some header) := by
  obtain ⟨hmembers, hstrings⟩ := hreadable
  obtain ⟨value, hvalue⟩ := hmembers.exists_member (str "msgId")
  have hempty : asString value = some [] := by
    cases value with
    | null => rfl
    | bool | int | decimal | string | array | object => exact absurd ⟨_, hvalue, rfl⟩ habsent
  obtain ⟨⟨queueId, hqueueId⟩, -⟩ := hstrings ⟨value, hvalue, by rw [hempty]; rfl⟩
  obtain ⟨queueOffset, hqueueOffset⟩ := isNumber_iff.mp hnumber
  unfold decode
  rw [hparse]
  dsimp only
  rw [memberAt_eq_ok.mpr hext, RemotingCommand.bind_ok, memberAt_eq_ok.mpr hvalue,
    RemotingCommand.bind_ok, hempty, RemotingCommand.require_some, RemotingCommand.bind_ok,
    cStringAt_eq_ok.mpr ⟨queueId, hqueueId, rfl⟩, RemotingCommand.bind_ok, hqueueOffset]
  exact ⟨_, rfl⟩

end SendMessageResponseHeader

namespace PullMessageResponseHeader

/-- The fields of a header that are strings, up to the first one that is no number. -/
def Readable (ext : Json) : Prop :=
  IsString ext "suggestWhichBrokerId" ∧ (IsNumber ext "suggestWhichBrokerId" →
    IsString ext "nextBeginOffset" ∧ (IsNumber ext "nextBeginOffset" →
      IsString ext "minOffset" ∧ (IsNumber ext "minOffset" → IsString ext "maxOffset")))

theorem survives_decode (hparse : lib.parse text = some object)
    (hext : member object (str "extFields") = some ext) :
    Survives (decode lib text) ↔ Readable ext := by
  unfold decode
  rw [hparse]
  dsimp only
  rw [memberAt_eq_ok.mpr hext, RemotingCommand.bind_ok]
  exact survives_str2llAt_bind fun _ ↦ survives_str2llAt_bind fun _ ↦
    survives_str2llAt_bind fun _ ↦ survives_str2llAt_map _

/-- A header that was read has all its numbers. -/
theorem eq_some_of_decode {r : Option PullMessageResponseHeader}
    (hparse : lib.parse text = some object)
    (hext : member object (str "extFields") = some ext) (h : decode lib text = .ok r) :
    (∃ header, r = some header) ∧ IsNumber ext "suggestWhichBrokerId" ∧
      IsNumber ext "nextBeginOffset" ∧ IsNumber ext "minOffset" ∧ IsNumber ext "maxOffset" := by
  unfold decode at h
  rw [hparse] at h
  dsimp only at h
  rw [memberAt_eq_ok.mpr hext, RemotingCommand.bind_ok] at h
  simp only [bind_eq_ok] at h
  obtain ⟨_, hsuggest, _, hnext, _, hmin, _, hmax, hr⟩ := h
  exact ⟨⟨_, (Except.ok.inj hr).symm⟩, isNumber_iff.mpr ⟨_, hsuggest⟩,
    isNumber_iff.mpr ⟨_, hnext⟩, isNumber_iff.mpr ⟨_, hmin⟩, isNumber_iff.mpr ⟨_, hmax⟩⟩

end PullMessageResponseHeader

namespace QueryConsumerOffsetResponseHeader

/-- The fields of a header without an offset, or with one that is a string. -/
def Readable (ext : Json) : Prop :=
  hasElements ext → HasMembers ext ∧ (Present ext "offset" → IsString ext "offset")

theorem survives_decode (hparse : lib.parse text = some object)
    (hext : member object (str "extFields") = some ext) :
    Survives (decode lib text) ↔ Readable ext := by
  unfold decode Readable
  rw [hparse]
  dsimp only
  rw [memberAt_eq_ok.mpr hext, RemotingCommand.bind_ok]
  by_cases helements : hasElements ext = true
  · rw [if_pos helements, survives_bind, survives_memberAt]
    simp only [helements, true_imp_iff]
    apply and_congr_right
    intro hmembers
    obtain ⟨value, hvalue⟩ := hmembers.exists_member (str "offset")
    have hafter (P : Json → Prop) : (∀ v, memberAt ext "offset" = .ok v → P v) ↔ P value := by
      simp [memberAt_eq_ok, hvalue]
    rw [hafter]
    cases hnull : isNull value with
    | true =>
      have habsent : ¬ Present ext "offset" := by simp [Present, hvalue, hnull]
      exact iff_of_true (survives_ok _) fun hpresent ↦ absurd hpresent habsent
    | false =>
      have hpresent : Present ext "offset" := ⟨value, hvalue, hnull⟩
      rw [if_neg Bool.false_ne_true, survives_str2llAt_map]
      exact ⟨fun hstring _ ↦ hstring, fun hstring ↦ hstring hpresent⟩
  · rw [if_neg helements]
    have hmembers : HasMembers object := by
      rw [← survives_memberAt, memberAt_eq_ok.mpr hext]
      exact survives_ok ext
    refine iff_of_true ?_ fun h ↦ absurd h helements
    exact (survives_asString_bind fun _ ↦ iff_of_true (survives_ok _) trivial).mpr
      ⟨hmembers, fun _ ↦ trivial⟩

/-- A header that was read without an offset has `-1`. -/
theorem eq_some_of_decode {r : Option QueryConsumerOffsetResponseHeader}
    (hparse : lib.parse text = some object)
    (hext : member object (str "extFields") = some ext) (h : decode lib text = .ok r) :
    ∃ header, r = some header ∧ (¬ Present ext "offset" → header.offset = -1) := by
  unfold decode at h
  rw [hparse] at h
  dsimp only at h
  rw [memberAt_eq_ok.mpr hext, RemotingCommand.bind_ok] at h
  by_cases helements : hasElements ext = true
  · rw [if_pos helements] at h
    obtain ⟨value, hvalue, h⟩ := bind_eq_ok.mp h
    rw [memberAt_eq_ok] at hvalue
    cases hnull : isNull value with
    | true =>
      rw [hnull, if_pos rfl] at h
      exact ⟨_, (Except.ok.inj h).symm, fun _ ↦ rfl⟩
    | false =>
      rw [hnull, if_neg Bool.false_ne_true] at h
      obtain ⟨offset, -, h⟩ := bind_eq_ok.mp h
      exact ⟨_, (Except.ok.inj h).symm, absurd ⟨value, hvalue, hnull⟩⟩
  · rw [if_neg helements] at h
    obtain ⟨_, -, h⟩ := bind_eq_ok.mp h
    obtain ⟨_, -, h⟩ := bind_eq_ok.mp h
    exact ⟨_, (Except.ok.inj h).symm, fun _ ↦ rfl⟩

end QueryConsumerOffsetResponseHeader

namespace CommandCustomHeader

/-- The fields that the response to a request with a code is asked for can be read. -/
def Readable (code : Int32) (ext : Json) : Prop :=
  if code = sendMessageValue then SendMessageResponseHeader.Readable ext
  else if code = pullMessageValue then PullMessageResponseHeader.Readable ext
  else if code = queryConsumerOffsetValue then QueryConsumerOffsetResponseHeader.Readable ext
  else True

theorem survives_decode (code : Int32) (hparse : lib.parse text = some object)
    (hext : member object (str "extFields") = some ext) :
    Survives (decode lib code text true) ↔ Readable code ext := by
  unfold decode Readable
  rw [if_pos rfl]
  split_ifs
  · rw [survives_map, SendMessageResponseHeader.survives_decode hparse hext]
  · rw [survives_map, PullMessageResponseHeader.survives_decode hparse hext]
  · rw [survives_map, QueryConsumerOffsetResponseHeader.survives_decode hparse hext]
  · exact iff_of_true (survives_ok _) trivial

end CommandCustomHeader

end Headers
end RocketMQ
