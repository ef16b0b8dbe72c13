import Mathlib.Data.List.Basic

/-
This file develops decoders that read a finite sequence from left to right.
The symbols, the errors and the decoded values are arbitrary.
-/

namespace PrivacyPass.Library

variable {σ ε α β : Type}

/-- A cursor splits a sequence at the read position, so the position never leaves the sequence. -/
structure Cursor (σ : Type) where
  before : List σ
  rest : List σ
  deriving DecidableEq, Repr

def Cursor.start (data : List σ) : Cursor σ := ⟨[], data⟩

/-- A read returns an optional value and the cursor it leaves behind. -/
abbrev Read (σ α : Type) := Cursor σ → Option α × Cursor σ

/-- A decoder returns a value or an error, and the cursor it leaves behind. -/
def Decoder (σ ε α : Type) := Cursor σ → Except ε α × Cursor σ

namespace Decoder

def result (value : α) : Decoder σ ε α := fun cursor => (.ok value, cursor)

def fail (error : ε) : Decoder σ ε α := fun cursor => (.error error, cursor)

def andThen (first : Decoder σ ε α) (next : α → Decoder σ ε β) : Decoder σ ε β := fun cursor =>
  match first cursor with
  | (.ok value, moved) => next value moved
  | (.error error, moved) => (.error error, moved)

def handle (body : Decoder σ ε α) (handler : ε → Decoder σ ε α) : Decoder σ ε α := fun cursor =>
  match body cursor with
  | (.ok value, moved) => (.ok value, moved)
  | (.error error, moved) => handler error moved

instance : Monad (Decoder σ ε) where
  pure := result
  bind := andThen

instance : MonadExcept ε (Decoder σ ε) where
  throw := fail
  tryCatch := handle

/-- This decoder turns an absent read into an error. -/
def ofRead (read : Read σ α) (error : ε) : Decoder σ ε α := fun cursor =>
  match read cursor with
  | (some value, moved) => (.ok value, moved)
  | (none, moved) => (.error error, moved)

/-- This decoder stops with the error when the condition holds. -/
def reject (condition : Prop) [Decidable condition] (error : ε) : Decoder σ ε Unit :=
  if condition then fail error else result ()

/-- This decoder stops with the error when some data is unread. -/
def finish (error : ε) : Decoder σ ε Unit := fun cursor =>
  if cursor.rest.isEmpty then (.ok (), cursor) else (.error error, cursor)

/-- This decoder looks at the unread part without reading it. -/
def unread : Decoder σ ε (List σ) := fun cursor => (.ok cursor.rest, cursor)

/-- This decoder embeds a computation that does not read. -/
def lift (computed : Except ε α) : Decoder σ ε α := fun cursor => (computed, cursor)

def run (decoder : Decoder σ ε α) (data : List σ) : Except ε α := (decoder (.start data)).1

@[simp] theorem pure_apply (value : α) (cursor : Cursor σ) :
    (pure value : Decoder σ ε α) cursor = (.ok value, cursor) := rfl

@[simp] theorem unread_apply (cursor : Cursor σ) :
    (unread : Decoder σ ε (List σ)) cursor = (.ok cursor.rest, cursor) := rfl

@[simp] theorem lift_apply (computed : Except ε α) (cursor : Cursor σ) :
    (lift computed : Decoder σ ε α) cursor = (computed, cursor) := rfl

/-- A bind continues from the cursor that its first part left behind. -/
theorem bind_ok {first : Decoder σ ε α} {next : α → Decoder σ ε β} {cursor moved : Cursor σ}
    {value : α} (step : first cursor = (.ok value, moved)) :
    (first >>= next) cursor = next value moved := by
  change andThen first next cursor = _
  simp only [andThen, step]

/-- A bind stops at an error of its first part. -/
theorem bind_error {first : Decoder σ ε α} {next : α → Decoder σ ε β} {cursor : Cursor σ} {error : ε}
    (step : (first cursor).1 = .error error) : ((first >>= next) cursor).1 = .error error := by
  change (andThen first next cursor).1 = _
  unfold andThen
  split
  · next shape =>
      rw [shape] at step
      cases step
  · next shape =>
      rw [shape] at step
      exact congrArg Except.error (Except.error.inj step)

/-- A bind succeeds only if both of its parts succeed. -/
theorem bind_eq_ok {first : Decoder σ ε α} {next : α → Decoder σ ε β} {cursor final : Cursor σ}
    {value : β} :
    (first >>= next) cursor = (.ok value, final) ↔
      ∃ middle moved, first cursor = (.ok middle, moved) ∧ next middle moved = (.ok value, final) := by
  change andThen first next cursor = _ ↔ _
  unfold andThen
  constructor
  · intro success
    split at success
    · next middle moved step => exact ⟨middle, moved, step, success⟩
    · cases success
  · intro ⟨middle, moved, step, success⟩
    simp only [step, success]

/-- A decoder accepts its input when the run ends with a value. -/
theorem run_eq_ok {decoder : Decoder σ ε α} {data : List σ} {value : α} :
    decoder.run data = .ok value ↔ ∃ final, decoder (.start data) = (.ok value, final) := by
  constructor
  · intro success
    exact ⟨(decoder (.start data)).2, Prod.ext success rfl⟩
  · intro ⟨final, success⟩
    simp only [run, success]

theorem ofRead_eq_ok {read : Read σ α} {error : ε} {cursor final : Cursor σ} {value : α} :
    ofRead read error cursor = (.ok value, final) ↔ read cursor = (some value, final) := by
  unfold ofRead
  constructor
  · intro success
    split at success
    · next read => simpa [read] using success
    · cases success
  · intro success
    simp only [success]

/-- A rejection lets the run continue exactly when its condition fails. -/
theorem reject_eq_ok {condition : Prop} [Decidable condition] {error : ε} {cursor final : Cursor σ}
    {value : Unit} :
    reject condition error cursor = (.ok value, final) ↔ ¬ condition ∧ cursor = final := by
  by_cases holds : condition <;> simp [reject, fail, result, holds]

/-- A rejection whose condition fails is skipped. -/
theorem reject_bind {condition : Prop} [Decidable condition] {error : ε}
    {next : Unit → Decoder σ ε β} {cursor : Cursor σ} (fails : ¬ condition) :
    (reject condition error >>= next) cursor = next () cursor :=
  bind_ok (reject_eq_ok.mpr ⟨fails, rfl⟩)

/-- A run past a rejection shows that the condition fails. -/
theorem reject_bind_eq_ok {condition : Prop} [Decidable condition] {error : ε}
    {next : Unit → Decoder σ ε β} {cursor final : Cursor σ} {value : β}
    (success : (reject condition error >>= next) cursor = (.ok value, final)) :
    ¬ condition ∧ next () cursor = (.ok value, final) := by
  obtain ⟨⟨⟩, moved, step, continued⟩ := bind_eq_ok.mp success
  obtain ⟨fails, rfl⟩ := reject_eq_ok.mp step
  exact ⟨fails, continued⟩

/-- The final check succeeds exactly when no data is unread. -/
theorem finish_eq_ok {error : ε} {cursor final : Cursor σ} {value : Unit} :
    finish error cursor = (.ok value, final) ↔ cursor.rest = [] ∧ cursor = final := by
  by_cases empty : cursor.rest = [] <;> simp [finish, empty]

theorem finish_bind_eq_ok {error : ε} {next : Unit → Decoder σ ε β} {cursor final : Cursor σ}
    {value : β} (success : (finish error >>= next) cursor = (.ok value, final)) :
    cursor.rest = [] ∧ next () cursor = (.ok value, final) := by
  obtain ⟨⟨⟩, moved, step, continued⟩ := bind_eq_ok.mp success
  obtain ⟨done, rfl⟩ := finish_eq_ok.mp step
  exact ⟨done, continued⟩

theorem finish_bind {error : ε} {next : Unit → Decoder σ ε β} {before : List σ} :
    (finish error >>= next) ⟨before, []⟩ = next () ⟨before, []⟩ :=
  bind_ok (finish_eq_ok.mpr ⟨rfl, rfl⟩)

theorem pure_eq_ok {cursor final : Cursor σ} {value result : α} :
    (pure value : Decoder σ ε α) cursor = (.ok result, final) ↔ value = result ∧ cursor = final := by
  simp

theorem lift_eq_ok {computed : Except ε α} {cursor final : Cursor σ} {value : α} :
    lift computed cursor = (.ok value, final) ↔ computed = .ok value ∧ cursor = final := by
  simp

end Decoder

/-- The read turns exactly this word into this value, wherever the word stands. -/
def Reads (read : Read σ α) (word : List σ) (value : α) : Prop :=
  ∀ before rest, read ⟨before, word ++ rest⟩ = (some value, ⟨before ++ word, rest⟩)

/-- The decoder turns exactly this word into this value, wherever the word stands. -/
def Decodes (decoder : Decoder σ ε α) (word : List σ) (value : α) : Prop :=
  ∀ before rest, decoder ⟨before, word ++ rest⟩ = (.ok value, ⟨before ++ word, rest⟩)

/-- Each value that the read returns belongs to the word it consumed. -/
def ReadsOnly (read : Read σ α) (language : List σ → α → Prop) : Prop :=
  ∀ cursor value final, read cursor = (some value, final) →
    ∃ word, language word value ∧ cursor.rest = word ++ final.rest

/-- Each value that the decoder returns belongs to the word it consumed. -/
def DecodesOnly (decoder : Decoder σ ε α) (language : List σ → α → Prop) : Prop :=
  ∀ cursor value final, decoder cursor = (.ok value, final) →
    ∃ word, language word value ∧ cursor.rest = word ++ final.rest

theorem Reads.decodes {read : Read σ α} {word : List σ} {value : α}
    (reads : Reads read word value) (error : ε) :
    Decodes (Decoder.ofRead read error) word value := by
  intro before rest
  rw [Decoder.ofRead_eq_ok]
  exact reads before rest

theorem ReadsOnly.decodesOnly {read : Read σ α} {language : List σ → α → Prop}
    (reads : ReadsOnly read language) (error : ε) :
    DecodesOnly (Decoder.ofRead read error) language := by
  intro cursor value final success
  exact reads cursor value final (Decoder.ofRead_eq_ok.mp success)

theorem decodes_pure (value : α) : Decodes (pure value : Decoder σ ε α) [] value := by
  intro before rest
  simp

theorem decodes_reject {condition : Prop} [Decidable condition] (error : ε)
    (fails : ¬ condition) : Decodes (Decoder.reject condition error : Decoder σ ε Unit) [] () := by
  intro before rest
  rw [Decoder.reject_eq_ok]
  exact ⟨fails, by simp⟩

/-- A bind runs its second part after the word of its first part. -/
theorem Decodes.bind_apply {first : Decoder σ ε α} {word : List σ} {value : α}
    (decodes : Decodes first word value) (next : α → Decoder σ ε β) (before rest : List σ) :
    (first >>= next) ⟨before, word ++ rest⟩ = next value ⟨before ++ word, rest⟩ :=
  Decoder.bind_ok (decodes before rest)

/-- Two decoders in sequence decode the two words in sequence. -/
theorem Decodes.bind {first : Decoder σ ε α} {next : α → Decoder σ ε β} {word tail : List σ}
    {value : α} {result : β} (left : Decodes first word value)
    (right : Decodes (next value) tail result) : Decodes (first >>= next) (word ++ tail) result := by
  intro before rest
  rw [List.append_assoc, left.bind_apply, right, List.append_assoc]

/-- A successful sequence starts with a word of its first part. -/
theorem DecodesOnly.bind_eq_ok {first : Decoder σ ε α} {next : α → Decoder σ ε β}
    {language : List σ → α → Prop} (only : DecodesOnly first language) {cursor final : Cursor σ}
    {value : β} (success : (first >>= next) cursor = (.ok value, final)) :
    ∃ middle moved word, language word middle ∧ cursor.rest = word ++ moved.rest ∧
      next middle moved = (.ok value, final) := by
  obtain ⟨middle, moved, step, continued⟩ := Decoder.bind_eq_ok.mp success
  obtain ⟨word, fits, rest⟩ := only cursor middle moved step
  exact ⟨middle, moved, word, fits, rest, continued⟩

theorem ReadsOnly.bind_eq_ok {read : Read σ α} {error : ε} {next : α → Decoder σ ε β}
    {language : List σ → α → Prop} (only : ReadsOnly read language) {cursor final : Cursor σ}
    {value : β} (success : (Decoder.ofRead read error >>= next) cursor = (.ok value, final)) :
    ∃ middle moved word, language word middle ∧ cursor.rest = word ++ moved.rest ∧
      next middle moved = (.ok value, final) :=
  (only.decodesOnly error).bind_eq_ok success

/-- A decoder that accepts the whole word also accepts it on its own. -/
theorem Decodes.run {decoder : Decoder σ ε α} {word : List σ} {value : α}
    (decodes : Decodes decoder word value) : decoder.run word = .ok value := by
  rw [Decoder.run_eq_ok]
  have whole := decodes [] []
  rw [List.append_nil] at whole
  exact ⟨_, whole⟩

section Repeated

/-- This decoder reads the given number of values in order. -/
def Decoder.times (element : Decoder σ ε α) : Nat → Decoder σ ε (List α)
  | 0 => pure []
  | count + 1 => do
      let head ← element
      let tail ← element.times count
      pure (head :: tail)

/-- A repeated decoder decodes the concatenation of its words. -/
theorem Decodes.times {element : Decoder σ ε α} {encode : α → List σ} {values : List α}
    (each : ∀ value ∈ values, Decodes element (encode value) value) :
    Decodes (element.times values.length) (values.flatMap encode) values := by
  induction values with
  | nil => exact decodes_pure []
  | cons head tail ih =>
      rw [List.length_cons, List.flatMap_cons]
      have rest := ih fun value member => each value (List.mem_cons_of_mem _ member)
      apply (each head List.mem_cons_self).bind
      rw [← List.append_nil (tail.flatMap encode)]
      exact rest.bind (decodes_pure _)

/-- A repeated decoder returns as many values as it was asked for, each with its own word. -/
theorem DecodesOnly.times {element : Decoder σ ε α} {language : List σ → α → Prop}
    (each : DecodesOnly element language) (count : Nat) :
    DecodesOnly (element.times count) fun word values =>
      values.length = count ∧ ∃ words, words.flatten = word ∧ List.Forall₂ language words values := by
  induction count with
  | zero =>
      intro cursor values final success
      obtain ⟨rfl, rfl⟩ : values = [] ∧ final = cursor := by
        simpa [Decoder.times, eq_comm] using success
      exact ⟨[], ⟨rfl, [], rfl, .nil⟩, rfl⟩
  | succ count ih =>
      intro cursor values final success
      obtain ⟨head, moved, headStep, success⟩ := Decoder.bind_eq_ok.mp success
      obtain ⟨tail, last, tailStep, success⟩ := Decoder.bind_eq_ok.mp success
      obtain ⟨rfl, rfl⟩ : values = head :: tail ∧ final = last := by
        simpa [eq_comm] using success
      obtain ⟨word, fits, rest⟩ := each _ _ _ headStep
      obtain ⟨_, ⟨length, words, rfl, all⟩, tailRest⟩ := ih _ _ _ tailStep
      exact ⟨word ++ words.flatten, ⟨by simp [length], word :: words, rfl, .cons fits all⟩,
        by rw [rest, tailRest, List.append_assoc]⟩

/-- A repeated decoder whose values fix their words returns values of the joined words. -/
theorem DecodesOnly.times_encode {element : Decoder σ ε α} {encode : α → List σ} {fits : α → Prop}
    (each : DecodesOnly element fun word value => word = encode value ∧ fits value) (count : Nat) :
    DecodesOnly (element.times count) fun word values =>
      values.length = count ∧ word = values.flatMap encode ∧ ∀ value ∈ values, fits value := by
  intro cursor values final success
  obtain ⟨_, ⟨length, words, rfl, all⟩, rest⟩ := DecodesOnly.times each count _ _ _ success
  refine ⟨_, ⟨length, ?_⟩, rest⟩
  clear length success rest
  induction all with
  | nil => simp
  | cons head tail ih =>
      obtain ⟨rfl, bound⟩ := head
      rw [List.flatten_cons, List.flatMap_cons, ih.1]
      exact ⟨rfl, List.forall_mem_cons.mpr ⟨bound, ih.2⟩⟩

end Repeated

section UntilEmpty

/-- Each success of the decoder shortens the unread data. -/
def Consumes (decoder : Decoder σ ε α) : Prop :=
  ∀ cursor value final, decoder cursor = (.ok value, final) → final.rest.length < cursor.rest.length

theorem Consumes.reject_bind {condition : Prop} [Decidable condition] {error : ε}
    {next : Unit → Decoder σ ε α} (consumes : Consumes (next ())) :
    Consumes (Decoder.reject condition error >>= next) := by
  intro cursor value final success
  exact consumes cursor value final (Decoder.reject_bind_eq_ok success).2

theorem Consumes.unread_bind {next : List σ → Decoder σ ε α}
    (consumes : ∀ remaining, Consumes (next remaining)) : Consumes (Decoder.unread >>= next) := by
  intro cursor value final success
  exact consumes cursor.rest cursor value final success

theorem Consumes.bind_lift {first : Decoder σ ε α} (consumes : Consumes first)
    (computed : α → Except ε β) : Consumes (first >>= fun value => Decoder.lift (computed value)) := by
  intro cursor value final success
  obtain ⟨middle, moved, step, success⟩ := Decoder.bind_eq_ok.mp success
  obtain ⟨-, rfl⟩ := Decoder.lift_eq_ok.mp success
  exact consumes cursor middle moved step

theorem consumes_throw (error : ε) : Consumes (throw error : Decoder σ ε α) := by
  intro cursor value final success
  cases success

/-- This decoder reads values until no data is unread, and each element knows the number of values
before it. -/
def Decoder.untilEmpty (element : Nat → Decoder σ ε α) (consumes : ∀ count, Consumes (element count))
    (count : Nat) (cursor : Cursor σ) : Except ε (List α) × Cursor σ :=
  if cursor.rest = [] then (.ok [], cursor)
  else
    match _step : element count cursor with
    | (.error error, moved) => (.error error, moved)
    | (.ok value, moved) =>
        match untilEmpty element consumes (count + 1) moved with
        | (.ok values, last) => (.ok (value :: values), last)
        | (.error error, last) => (.error error, last)
termination_by cursor.rest.length
decreasing_by exact consumes _ _ _ _ _step

variable {element : Nat → Decoder σ ε α} {consumes : ∀ count, Consumes (element count)}

theorem Decoder.untilEmpty_done (count : Nat) (before : List σ) :
    untilEmpty element consumes count ⟨before, []⟩ = (.ok [], ⟨before, []⟩) := by
  rw [untilEmpty, if_pos rfl]

/-- A decoded element is followed by the loop on the remaining data. -/
theorem Decoder.untilEmpty_step {count : Nat} {cursor moved last : Cursor σ} {value : α}
    {values : List α} (unread : cursor.rest ≠ []) (step : element count cursor = (.ok value, moved))
    (rest : untilEmpty element consumes (count + 1) moved = (.ok values, last)) :
    untilEmpty element consumes count cursor = (.ok (value :: values), last) := by
  rw [untilEmpty, if_neg unread]
  split
  · next failed => rw [step] at failed; cases failed
  · next value' moved' again =>
      rw [step] at again
      cases again
      rw [rest]

/-- A loop that succeeds on unread data has decoded an element first. -/
theorem Decoder.untilEmpty_eq_ok {count : Nat} {cursor last : Cursor σ} {values : List α}
    (success : untilEmpty element consumes count cursor = (.ok values, last)) :
    (cursor.rest = [] ∧ values = [] ∧ last = cursor) ∨ ∃ value rest moved,
      values = value :: rest ∧ element count cursor = (.ok value, moved) ∧
        untilEmpty element consumes (count + 1) moved = (.ok rest, last) := by
  rw [untilEmpty] at success
  split at success
  · next done =>
      cases success
      exact .inl ⟨done, rfl, rfl⟩
  · split at success
    · cases success
    · next value moved step =>
        split at success
        · next rest final continued =>
            cases success
            exact .inr ⟨value, rest, moved, rfl, step, continued⟩
        · cases success

/-- The loop decodes the joined words of its values when each element decodes its own word. -/
theorem Decoder.untilEmpty_decodes {encode : α → List σ} {values : List α} {count : Nat}
    (nonempty : ∀ value ∈ values, encode value ≠ [])
    (each : ∀ value ∈ values, ∀ index < values.length,
      Decodes (element (count + index)) (encode value) value) (before : List σ) :
    untilEmpty element consumes count ⟨before, values.flatMap encode⟩ =
      (.ok values, ⟨before ++ values.flatMap encode, []⟩) := by
  induction values generalizing count before with
  | nil => rw [List.flatMap_nil, untilEmpty_done, List.append_nil]
  | cons head tail ih =>
      have first := each head List.mem_cons_self 0 (Nat.succ_pos _)
      have rest := @ih (count + 1)
        (fun value member => nonempty value (List.mem_cons_of_mem _ member))
        (fun value member index inside => by
          have later := each value (List.mem_cons_of_mem _ member) (index + 1)
            (Nat.succ_lt_succ inside)
          rwa [Nat.add_comm index, ← Nat.add_assoc] at later)
        (before ++ encode head)
      rw [List.flatMap_cons]
      refine untilEmpty_step ?_ (first _ _) ?_
      · intro empty
        exact nonempty head List.mem_cons_self (List.append_eq_nil_iff.mp empty).1
      · rw [rest, List.append_assoc]

/-- The loop returns only values of the joined words. -/
theorem Decoder.untilEmpty_only {encode : α → List σ} {fits : Nat → α → Prop}
    (each : ∀ count, DecodesOnly (element count) fun word value => word = encode value ∧ fits count value)
    {count : Nat} {cursor last : Cursor σ} {values : List α}
    (success : untilEmpty element consumes count cursor = (.ok values, last)) :
    cursor.rest = values.flatMap encode ∧
      ∀ value ∈ values, ∃ index < values.length, fits (count + index) value := by
  induction values generalizing count cursor with
  | nil =>
      rcases untilEmpty_eq_ok success with ⟨done, -, -⟩ | ⟨value, rest, moved, absurd, -, -⟩
      · exact ⟨done, by simp⟩
      · cases absurd
  | cons head tail ih =>
      rcases untilEmpty_eq_ok success with ⟨-, absurd, -⟩ | ⟨value, rest, moved, equal, step, more⟩
      · cases absurd
      · cases equal
        obtain ⟨word, ⟨rfl, bound⟩, split⟩ := each count _ _ _ step
        obtain ⟨joined, later⟩ := ih more
        refine ⟨by rw [split, joined, List.flatMap_cons], ?_⟩
        refine List.forall_mem_cons.mpr ⟨⟨0, Nat.succ_pos _, bound⟩, fun value member => ?_⟩
        obtain ⟨index, inside, bound⟩ := later value member
        exact ⟨index + 1, Nat.succ_lt_succ inside,
          by rwa [Nat.add_comm index, ← Nat.add_assoc]⟩

/-- A loop whose elements know a limit stops below it. -/
theorem Decoder.untilEmpty_length {limit count : Nat} {cursor last : Cursor σ} {values : List α}
    (limited : ∀ count cursor value moved, element count cursor = (.ok value, moved) → count < limit)
    (success : untilEmpty element consumes count cursor = (.ok values, last)) :
    values = [] ∨ count + values.length ≤ limit := by
  induction values generalizing count cursor with
  | nil => exact .inl rfl
  | cons head tail ih =>
      rcases untilEmpty_eq_ok success with ⟨-, absurd, -⟩ | ⟨value, rest, moved, equal, step, more⟩
      · cases absurd
      · cases equal
        have room := limited count cursor head moved step
        rw [List.length_cons]
        rcases ih more with rfl | below
        · exact .inr (Nat.succ_le_of_lt room)
        · exact .inr (by omega)

/-- The loop accepts exactly the joined words of its values, as many as the limit allows. -/
theorem Decoder.untilEmpty_iff {encode : α → List σ} {fits : α → Prop} {limit : Nat}
    (nonempty : ∀ value, fits value → encode value ≠ [])
    (decodes : ∀ count < limit, ∀ value, fits value → Decodes (element count) (encode value) value)
    (only : ∀ count, DecodesOnly (element count) fun word value =>
      word = encode value ∧ count < limit ∧ fits value)
    {data : List σ} {values : List α} :
    (untilEmpty element consumes 0 (.start data)).1 = .ok values ↔
      data = values.flatMap encode ∧ (∀ value ∈ values, fits value) ∧ values.length ≤ limit := by
  constructor
  · intro success
    have looped : untilEmpty element consumes 0 (.start data) = (Except.ok values, _) :=
      Prod.ext success rfl
    obtain ⟨joined, bounds⟩ := untilEmpty_only only looped
    refine ⟨joined, fun value member => ?_, ?_⟩
    · obtain ⟨index, -, -, bound⟩ := bounds value member
      exact bound
    · have limited : ∀ count cursor value moved, element count cursor = (.ok value, moved) →
          count < limit := by
        intro count cursor value moved step
        obtain ⟨word, ⟨-, room, -⟩, -⟩ := only count cursor value moved step
        exact room
      rcases untilEmpty_length limited looped with rfl | below
      · exact Nat.zero_le limit
      · omega
  · rintro ⟨rfl, each, few⟩
    exact congrArg Prod.fst (untilEmpty_decodes (fun value member => nonempty value (each value member))
      (fun value member index inside => decodes _ (by omega) value (each value member)) [])

end UntilEmpty

end PrivacyPass.Library
