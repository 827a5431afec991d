import Mathlib.Data.List.Infix
import Mathlib.Order.Monotone.Basic

/-!
# Coders that work on a stream

General library: a coder is called with some input and room for some output, consumes part of the
input and puts out part of the output, and is called again with what is left. An encoder is told
when the input is over. A decoder stops by itself at the end of what was encoded, or where that is
broken.
-/

namespace RocketMQ.Base

universe u v

/-- What a call comes to: the new state, how much of the input it has consumed, and the output. -/
structure StreamCall (σ : Type) (β : Type v) where
  state : σ
  consumed : Nat
  out : List β

/-! ### Encoders -/

/-- A call of an encoder gets the input that there is, the room for output, and whether the input is
over. -/
structure Encoder (α : Type u) (β : Type v) where
  State : Type
  encode : State → List α → Nat → Bool → StreamCall State β

/-- From its first state an encoder makes `encoded` of its input, for callers that keep to the
rules: after a call that has filled its room the rest of the input comes with the same flag, after
any other one that was not the last input anything may come. -/
structure Encoder.Encodes {α : Type u} {β : Type v} (z : Encoder α β) (init : z.State)
    (encoded : List α → List β) where
  fed : z.State → List α
  given : z.State → List β
  Allowed : z.State → List α → Bool → Prop
  bound : Nat → Nat
  fed_init : fed init = []
  given_init : given init = []
  allowed_init : ∀ avail last, Allowed init avail last
  consumed_le : ∀ s avail room last, (z.encode s avail room last).consumed ≤ avail.length
  out_le : ∀ s avail room last, (z.encode s avail room last).out.length ≤ room
  fed_call : ∀ s avail room last, Allowed s avail last →
    fed (z.encode s avail room last).state =
      fed s ++ avail.take (z.encode s avail room last).consumed
  given_call : ∀ s avail room last, Allowed s avail last →
    given (z.encode s avail room last).state = given s ++ (z.encode s avail room last).out
  allowed_rest : ∀ s avail room last, Allowed s avail last →
    (z.encode s avail room last).out.length = room →
      Allowed (z.encode s avail room last).state
        (avail.drop (z.encode s avail room last).consumed) last
  allowed_next : ∀ s avail room, Allowed s avail false →
    (z.encode s avail room false).out.length < room →
      ∀ avail' last, Allowed (z.encode s avail room false).state avail' last
  consumed_all : ∀ s avail room last, Allowed s avail last →
    (z.encode s avail room last).out.length < room →
      (z.encode s avail room last).consumed = avail.length
  given_last : ∀ s avail room, Allowed s avail true →
    (z.encode s avail room true).out.length < room →
      given (z.encode s avail room true).state = encoded (fed (z.encode s avail room true).state)
  given_le : ∀ s avail last, Allowed s avail last →
    (given s).length ≤ bound ((fed s).length + avail.length)
  bound_mono : Monotone bound

/-! ### Decoders -/

/-- What a format makes of the input so far: the output that it stands for, and whether it is at its
end or broken there. -/
structure StreamFormat (α : Type u) (β : Type v) where
  output : List α → List β
  ended : List α → Bool
  broken : List α → Bool
  output_mono : ∀ p q, p <+: q → output p <+: output q
  ended_sound : ∀ p, ended p = true → broken p = false

namespace StreamFormat

variable {α : Type u} {β : Type v} (f : StreamFormat α β)

/-- The output of the first part of the input that comes to an end, unless it is broken before. -/
def decodedFrom (seen : List α) : List α → Option (List β)
  | [] => if f.ended seen then some (f.output seen) else none
  | a :: rest =>
    if f.ended seen then some (f.output seen)
    else if f.broken seen then none
    else decodedFrom (seen ++ [a]) rest

/-- The output of an input. -/
def decoded (input : List α) : Option (List β) := f.decodedFrom [] input

variable {f} {seen : List α}

/-- Input that goes on can be passed over. -/
theorem decodedFrom_append (taken rest : List α)
    (hlive : ∀ n < taken.length,
      f.ended (seen ++ taken.take n) = false ∧ f.broken (seen ++ taken.take n) = false) :
    f.decodedFrom seen (taken ++ rest) = f.decodedFrom (seen ++ taken) rest := by
  induction taken generalizing seen with
  | nil => rw [List.nil_append, List.append_nil]
  | cons a taken ih =>
    obtain ⟨hended, hbroken⟩ := hlive 0 (Nat.succ_pos _)
    rw [List.take_zero, List.append_nil] at hended hbroken
    rw [List.cons_append, decodedFrom, hended, hbroken, if_neg Bool.false_ne_true,
      if_neg Bool.false_ne_true, ih, List.append_assoc, List.singleton_append]
    intro n hn
    have hnext := hlive (n + 1) (Nat.succ_lt_succ hn)
    rwa [List.take_succ_cons, ← List.singleton_append, ← List.append_assoc] at hnext

theorem decodedFrom_of_ended (hended : f.ended seen = true) (rest : List α) :
    f.decodedFrom seen rest = some (f.output seen) := by
  cases rest <;> rw [decodedFrom, if_pos hended]

theorem decodedFrom_of_broken (hbroken : f.broken seen = true) (rest : List α) :
    f.decodedFrom seen rest = none := by
  have hended : ¬ f.ended seen = true := fun hended ↦ by
    rw [f.ended_sound seen hended] at hbroken
    cases hbroken
  cases rest with
  | nil => rw [decodedFrom, if_neg hended]
  | cons a rest => rw [decodedFrom, if_neg hended, if_pos hbroken]

variable (f)

/-- How much of an input goes on. -/
def liveLength (seen : List α) : List α → Nat
  | [] => 0
  | a :: rest => if f.ended seen || f.broken seen then 0 else liveLength (seen ++ [a]) rest + 1

theorem liveLength_le (seen avail : List α) : f.liveLength seen avail ≤ avail.length := by
  induction avail generalizing seen with
  | nil => exact le_rfl
  | cons a rest ih =>
    rw [liveLength]
    split_ifs
    · exact Nat.zero_le _
    · exact Nat.succ_le_succ (ih _)

/-- All of that is passed, and what follows it is not. -/
theorem liveLength_spec (seen avail : List α) :
    (∀ n < f.liveLength seen avail,
      f.ended (seen ++ avail.take n) = false ∧ f.broken (seen ++ avail.take n) = false) ∧
    (f.ended (seen ++ avail.take (f.liveLength seen avail)) = false →
      f.broken (seen ++ avail.take (f.liveLength seen avail)) = false →
        f.liveLength seen avail = avail.length) := by
  induction avail generalizing seen with
  | nil => exact ⟨fun n hn ↦ absurd hn (Nat.not_lt_zero n), fun _ _ ↦ rfl⟩
  | cons a rest ih =>
    obtain ⟨hlive, hstop⟩ := ih (seen ++ [a])
    rw [liveLength]
    split_ifs with hstops
    · rw [Bool.or_eq_true] at hstops
      refine ⟨fun n hn ↦ absurd hn (Nat.not_lt_zero n), fun hended hbroken ↦ ?_⟩
      rw [List.take_zero, List.append_nil] at hended hbroken
      rw [hended, hbroken] at hstops
      rcases hstops with h | h <;> cases h
    · rw [Bool.or_eq_true, not_or, Bool.not_eq_true, Bool.not_eq_true] at hstops
      refine ⟨fun n hn ↦ ?_, fun hended hbroken ↦ ?_⟩
      · cases n with
        | zero => simpa using hstops
        | succ n => simpa using hlive n (by omega)
      · rw [List.take_succ_cons] at hended hbroken
        rw [List.length_cons, hstop (by simpa using hended) (by simpa using hbroken)]

/-- What an input stands for up to where it ends or breaks. -/
def emitted (input : List α) : List β := f.output (input.take (f.liveLength [] input))

variable {f}

/-- No more than that goes on. -/
theorem le_liveLength {avail : List α} {m : Nat} (hm : m ≤ avail.length)
    (hlive : ∀ n < m,
      f.ended (seen ++ avail.take n) = false ∧ f.broken (seen ++ avail.take n) = false) :
    m ≤ f.liveLength seen avail := by
  by_contra hlt
  obtain ⟨hended, hbroken⟩ := hlive _ (Nat.not_le.mp hlt)
  have hall := (f.liveLength_spec seen avail).2 hended hbroken
  omega

/-- What an input that goes on all the way puts out, a longer one puts out too. -/
theorem output_prefix_emitted {taken rest input : List α} (hinput : taken ++ rest = input)
    (hlive : ∀ n < taken.length,
      f.ended (taken.take n) = false ∧ f.broken (taken.take n) = false) :
    f.output taken <+: f.emitted input := by
  subst hinput
  refine f.output_mono _ _ ?_
  have hle : taken.length ≤ f.liveLength [] (taken ++ rest) := by
    refine le_liveLength (by rw [List.length_append]; omega) fun n hn ↦ ?_
    rw [List.nil_append, List.take_append_of_le_length hn.le]
    exact hlive n hn
  rw [List.take_append, List.take_of_length_le hle]
  exact List.prefix_append _ _

/-- The output of an input is what it stands for up to its end. -/
theorem decodedFrom_eq_some {avail : List α} {out : List β}
    (hout : f.decodedFrom seen avail = some out) :
    f.output (seen ++ avail.take (f.liveLength seen avail)) = out := by
  induction avail generalizing seen with
  | nil =>
    rw [decodedFrom] at hout
    split_ifs at hout
    rw [liveLength, List.take_nil, List.append_nil]
    exact Option.some.inj hout
  | cons a rest ih =>
    rw [decodedFrom] at hout
    rw [liveLength]
    split_ifs at hout with hended hbroken
    · rw [if_pos (by rw [hended, Bool.true_or]), List.take_zero, List.append_nil]
      exact Option.some.inj hout
    · rw [if_neg (by simp [hended, hbroken]), List.take_succ_cons]
      simpa using ih hout

theorem emitted_eq_of_decoded {input : List α} {out : List β} (hout : f.decoded input = some out) :
    f.emitted input = out :=
  decodedFrom_eq_some hout

end StreamFormat

/-! ### Formats read by a machine -/

/-- A machine that reads an input piece by piece. -/
structure StreamMachine (σ : Type) (α : Type u) (β : Type v) where
  step : σ → α → σ × List β
  ended : σ → Bool
  broken : σ → Bool
  ended_sound : ∀ s, ended s = true → broken s = false

namespace StreamMachine

variable {σ : Type} {α : Type u} {β : Type v} (m : StreamMachine σ α β)

/-- Where an input leads from a state, and the output on the way. -/
def run (s : σ) : List α → σ × List β
  | [] => (s, [])
  | a :: rest =>
    let next := run (m.step s a).1 rest
    (next.1, (m.step s a).2 ++ next.2)

theorem run_append (s : σ) (input more : List α) : m.run s (input ++ more) =
    ((m.run (m.run s input).1 more).1, (m.run s input).2 ++ (m.run (m.run s input).1 more).2) := by
  induction input generalizing s with
  | nil => rfl
  | cons a input ih =>
    simp only [List.cons_append, run, ih, List.append_assoc]

/-- The format that a machine reads from a state on. -/
def format (start : σ) : StreamFormat α β where
  output input := (m.run start input).2
  ended input := m.ended (m.run start input).1
  broken input := m.broken (m.run start input).1
  output_mono p q hprefix := by
    obtain ⟨rest, rfl⟩ := hprefix
    rw [run_append]
    exact List.prefix_append _ _
  ended_sound p hended := m.ended_sound _ hended

/-- What the machine makes of an input from a state on, behind the output so far. -/
def decodedFrom (s : σ) (out : List β) : List α → Option (List β)
  | [] => if m.ended s then some out else none
  | a :: rest =>
    if m.ended s then some out
    else if m.broken s then none
    else decodedFrom (m.step s a).1 (out ++ (m.step s a).2) rest

/-- It is what the format makes of it. -/
theorem decodedFrom_run (start : σ) (seen rest : List α) :
    (m.format start).decodedFrom seen rest =
      m.decodedFrom (m.run start seen).1 (m.run start seen).2 rest := by
  induction rest generalizing seen with
  | nil => rfl
  | cons a rest ih =>
    rw [StreamFormat.decodedFrom, decodedFrom, ih, run_append]
    simp only [run, List.append_nil]
    rfl

theorem decoded_format (start : σ) (input : List α) :
    (m.format start).decoded input = m.decodedFrom start [] input :=
  m.decodedFrom_run start [] input

variable {m} {s : σ}

theorem decodedFrom_of_ended (hended : m.ended s = true) (out : List β) (rest : List α) :
    m.decodedFrom s out rest = some out := by
  cases rest <;> rw [decodedFrom, if_pos hended]

theorem decodedFrom_cons (hended : m.ended s = false) (hbroken : m.broken s = false)
    (out : List β) (a : α) (rest : List α) : m.decodedFrom s out (a :: rest) =
      m.decodedFrom (m.step s a).1 (out ++ (m.step s a).2) rest := by
  rw [decodedFrom, hended, hbroken, if_neg Bool.false_ne_true, if_neg Bool.false_ne_true]

end StreamMachine

/-- What a decoder tells after a call. -/
inductive DecoderSignal where
  | more
  | ended
  | broken
deriving DecidableEq

/-- A call of a decoder gets the input that there is and the room for output. -/
structure Decoder (α : Type u) (β : Type v) where
  State : Type
  decode : State → List α → Nat → StreamCall State β × DecoderSignal

/-- From its first state a decoder follows a format: it puts out what the format tells, consumes
nothing behind the end and tells when it is there, or that it has met something broken; it wants
more only when its room is full or its input is used up. -/
structure Decoder.Decodes {α : Type u} {β : Type v} (z : Decoder α β) (init : z.State)
    (f : StreamFormat α β) where
  fed : z.State → List α
  given : z.State → List β
  fed_init : fed init = []
  given_init : given init = []
  consumed_le : ∀ s avail room, (z.decode s avail room).1.consumed ≤ avail.length
  out_le : ∀ s avail room, (z.decode s avail room).1.out.length ≤ room
  fed_call : ∀ s avail room, fed (z.decode s avail room).1.state =
    fed s ++ avail.take (z.decode s avail room).1.consumed
  given_call : ∀ s avail room, given (z.decode s avail room).1.state =
    given s ++ (z.decode s avail room).1.out
  given_prefix : ∀ s, given s <+: f.output (fed s)
  live : ∀ s avail room, (z.decode s avail room).2 ≠ .broken →
    ∀ n < (z.decode s avail room).1.consumed,
      f.ended (fed s ++ avail.take n) = false ∧ f.broken (fed s ++ avail.take n) = false
  signal_ended : ∀ s avail room, (z.decode s avail room).2 = .ended →
    f.ended (fed (z.decode s avail room).1.state) = true ∧
      given (z.decode s avail room).1.state = f.output (fed (z.decode s avail room).1.state)
  signal_broken : ∀ s avail room, (z.decode s avail room).2 = .broken →
    ∃ n ≤ avail.length, f.broken (fed s ++ avail.take n) = true ∧
      ∀ m < n, f.ended (fed s ++ avail.take m) = false ∧ f.broken (fed s ++ avail.take m) = false
  signal_more : ∀ s avail room, (z.decode s avail room).2 = .more →
    (z.decode s avail room).1.out.length < room →
      (z.decode s avail room).1.consumed = avail.length ∧
        f.ended (fed (z.decode s avail room).1.state) = false ∧
          f.broken (fed (z.decode s avail room).1.state) = false

/-! ### The plainest coders -/

section Plain

variable {α β : Type}

/-- An encoder that keeps its input until it is over. -/
def Encoder.late (encoded : List α → List β) : Encoder α β where
  State := List α × List β
  encode s avail room last :=
    let out := if last then ((encoded (s.1 ++ avail)).drop s.2.length).take room else []
    ⟨(s.1 ++ avail, s.2 ++ out), avail.length, out⟩

/-- What is given so far and some of what follows it. -/
theorem append_take_drop_prefix {given whole : List β} (h : given <+: whole) (room : Nat) :
    given ++ (whole.drop given.length).take room <+: whole := by
  obtain ⟨rest, rfl⟩ := h
  rw [List.drop_left, List.prefix_append_right_inj]
  exact List.take_prefix room rest

/-- When there is room left, it is all that follows. -/
theorem append_take_drop_eq {given whole : List β} (h : given <+: whole) {room : Nat}
    (hroom : ((whole.drop given.length).take room).length < room) :
    given ++ (whole.drop given.length).take room = whole := by
  obtain ⟨rest, rfl⟩ := h
  rw [List.drop_left] at hroom ⊢
  rw [List.take_of_length_le]
  rw [List.length_take] at hroom
  omega

/-- It keeps to the rules. -/
def Encoder.encodesLate {encoded : List α → List β} {bound : Nat → Nat} (hmono : Monotone bound)
    (hbound : ∀ input, (encoded input).length ≤ bound input.length) :
    (Encoder.late encoded).Encodes ([], []) encoded where
  fed := Prod.fst
  given := Prod.snd
  Allowed s avail last := s.2 = [] ∨ last = true ∧ s.2 <+: encoded (s.1 ++ avail)
  bound := bound
  fed_init := rfl
  given_init := rfl
  allowed_init _ _ := .inl rfl
  consumed_le _ _ _ _ := le_rfl
  out_le s avail room last := by
    cases last
    · exact Nat.zero_le room
    · exact List.length_take_le room _
  fed_call s avail room last _ := by simp [late]
  given_call _ _ _ _ _ := rfl
  allowed_rest s avail room last hallowed _ := by
    cases last with
    | false =>
      rcases hallowed with hnil | ⟨⟨⟩, -⟩
      exact .inl (by simp [late, hnil])
    | true =>
      have hprefix : s.2 <+: encoded (s.1 ++ avail) := by
        rcases hallowed with hnil | ⟨-, hprefix⟩
        · exact hnil ▸ List.nil_prefix
        · exact hprefix
      exact .inr ⟨rfl, by simpa [late] using append_take_drop_prefix hprefix room⟩
  allowed_next s avail room hallowed _ _ _ := by
    rcases hallowed with hnil | ⟨⟨⟩, -⟩
    exact .inl (by simp [late, hnil])
  consumed_all _ _ _ _ _ _ := rfl
  given_last s avail room hallowed hroom := by
    have hprefix : s.2 <+: encoded (s.1 ++ avail) := by
      rcases hallowed with hnil | ⟨-, hprefix⟩
      · exact hnil ▸ List.nil_prefix
      · exact hprefix
    exact append_take_drop_eq hprefix hroom
  given_le s avail last hallowed := by
    rcases hallowed with hnil | ⟨-, hprefix⟩
    · simp [hnil]
    · rw [← List.length_append]
      exact hprefix.length_le.trans (hbound _)
  bound_mono := hmono

namespace StreamFormat

variable (f : StreamFormat α β)

/-- A decoder that takes all that it may at once. -/
def eager : Decoder α β where
  State := { s : List α × List β // s.2 <+: f.output s.1 }
  decode s avail room :=
    let consumed := f.liveLength s.1.1 avail
    let fed := s.1.1 ++ avail.take consumed
    let out := ((f.output fed).drop s.1.2.length).take room
    (⟨⟨(fed, s.1.2 ++ out), append_take_drop_prefix
        (s.2.trans (f.output_mono _ _ (List.prefix_append _ _))) room⟩, consumed, out⟩,
      if (s.1.2 ++ out).length < (f.output fed).length then .more
      else if f.ended fed then .ended
      else if f.broken fed then .broken
      else .more)

/-- It follows the format. -/
def decodesEager : f.eager.Decodes ⟨([], []), List.nil_prefix⟩ f where
  fed s := s.1.1
  given s := s.1.2
  fed_init := rfl
  given_init := rfl
  consumed_le s avail _ := f.liveLength_le s.1.1 avail
  out_le _ _ room := List.length_take_le room _
  fed_call _ _ _ := rfl
  given_call _ _ _ := rfl
  given_prefix s := s.2
  live s avail _ _ := (f.liveLength_spec s.1.1 avail).1
  signal_ended s avail room h := by
    have hprefix := append_take_drop_prefix
      (s.2.trans (f.output_mono _ _ (List.prefix_append _ (avail.take (f.liveLength s.1.1 avail)))))
      room
    simp only [eager] at h ⊢
    split_ifs at h with hlt hended
    exact ⟨hended, hprefix.eq_of_length_le (Nat.not_lt.mp hlt)⟩
  signal_broken s avail room h := by
    simp only [eager] at h
    split_ifs at h with hlt hended hbroken
    exact ⟨_, f.liveLength_le s.1.1 avail, hbroken, (f.liveLength_spec s.1.1 avail).1⟩
  signal_more s avail room h hroom := by
    have hall := append_take_drop_eq
      (s.2.trans (f.output_mono _ _ (List.prefix_append _ (avail.take (f.liveLength s.1.1 avail)))))
      hroom
    have hstop := (f.liveLength_spec s.1.1 avail).2
    simp only [eager] at h ⊢
    rw [hall] at h
    split_ifs at h with hlt hended hbroken
    · exact absurd hlt (Nat.lt_irrefl _)
    · rw [Bool.not_eq_true] at hended hbroken
      exact ⟨hstop hended hbroken, hended, hbroken⟩

end StreamFormat

end Plain

end RocketMQ.Base
