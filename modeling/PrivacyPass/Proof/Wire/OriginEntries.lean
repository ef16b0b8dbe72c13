import PrivacyPass.Proof.Wire.Challenge

/-
This file proves which origin entries survive the encoding of a challenge.
-/

namespace PrivacyPass.TokenChallenge

open Library

/-- A challenge with few origin entries, all of them nonempty and without a comma, is decoded from its
encoding. -/
theorem deserialize_encoded {challenge : TokenChallenge} {bytes : Bytes}
    (success : challenge.serialize = .ok bytes) (few : challenge.originInfo.length ≤ 100)
    (nonempty : ∀ entry ∈ challenge.originInfo, entry ≠ [])
    (free : ∀ entry ∈ challenge.originInfo, comma ∉ entry) :
    ∃ decoded, deserialize bytes = .ok decoded ∧ decoded.tokenType = challenge.tokenType ∧
      decoded.issuerName = challenge.issuerName ∧
      decoded.redemptionContext = challenge.redemptionContext ∧
      decoded.originInfo = challenge.originInfo := by
  obtain ⟨⟨named, short, fits⟩, rfl⟩ := serialize_eq_ok.mp success
  have room : ([] : List Bytes).length + challenge.originInfo.length ≤ maxOriginEntries := by
    rw [List.length_nil, Nat.zero_add]
    exact few
  have entries := splitOriginInfo_join free nonempty room
  rw [List.nil_append, Pieces.join, ← originInfoString] at entries
  exact ⟨_, deserialize_wire named short fits entries, rfl, rfl, rfl, rfl⟩

/-- Two origins and a context survive the encoding. -/
theorem deserialize_encoded_two : ∃ decoded,
    deserialize (wire 2 [0x69] (some ⟨List.replicate 32 7, rfl⟩) [0x61, 0x2C, 0x62]) = .ok decoded ∧
      decoded.tokenType = .blindRsa ∧ decoded.issuerName = [0x69] ∧
      decoded.redemptionContext = some ⟨List.replicate 32 7, rfl⟩ ∧
      decoded.originInfo = [[0x61], [0x62]] :=
  @deserialize_encoded (create .blindRsa [0x69] (some ⟨List.replicate 32 7, rfl⟩) [[0x61], [0x62]])
    _ (serialize_ok ⟨by decide, by decide, by decide⟩) (by decide) (by decide) (by decide)

section Crowd

/-- The text has less than 100 nonempty entries, or it has 100 and does not end with two commas. -/
def Uncrowded (text : Bytes) : Prop :=
  (Pieces.pieces comma text).length < 100 ∨
    ((Pieces.pieces comma text).length = 100 ∧ ¬ [comma, comma] <:+ text)

/-- The loop has room for the text behind the entries that it has already found. -/
def Room (entries : Nat) (text : Bytes) : Prop :=
  text = [] ∨ entries + (Pieces.pieces comma text).length < maxOriginEntries ∨
    (entries + (Pieces.pieces comma text).length = maxOriginEntries ∧
      Pieces.pieces comma text ≠ [] ∧ ¬ [comma, comma] <:+ text)

/-- A last entry needs room for one more. -/
theorem room_last {entries : Nat} {text : Bytes} (absent : comma ∉ text) (nonempty : text ≠ []) :
    Room entries text ↔ entries < maxOriginEntries := by
  have one : Pieces.pieces comma text = [text] := by
    rw [Pieces.pieces_of_not_mem absent, if_neg (by simpa using nonempty)]
  have single : ¬ [comma, comma] <:+ text := fun doubled =>
    absent (doubled.mem List.mem_cons_self)
  rw [Room, one]
  simp only [nonempty, single, List.length_singleton, ne_eq, List.cons_ne_nil, not_false_eq_true,
    and_true, false_or]
  omega

/-- A last comma needs room for the entry before it. -/
theorem room_separator {entries : Nat} {part : Bytes} (absent : comma ∉ part)
    (below : entries < maxOriginEntries) : Room entries (part ++ [comma]) := by
  have count := @Pieces.pieces_append_length _ comma _ part [] absent
  rw [Pieces.pieces_nil, List.length_nil, Nat.add_zero] at count
  cases part with
  | nil =>
      refine .inr (.inl ?_)
      rw [count]
      simpa using below
  | cons head tail =>
      rw [List.isEmpty_cons, if_neg Bool.noConfusion] at count
      have some : Pieces.pieces comma (head :: tail ++ [comma]) ≠ [] := by
        rw [← List.length_pos_iff, count]
        exact Nat.one_pos
      rcases Nat.lt_or_eq_of_le (Nat.succ_le_of_lt below) with less | full
      · refine .inr (.inl ?_)
        rwa [count]
      · refine .inr (.inr ⟨?_, some, Pieces.single_suffix absent⟩)
        rwa [count]

/-- The room behind a comma is the room that its entry leaves. -/
theorem room_comma {entries : Nat} {part rest : Bytes} (absent : comma ∉ part)
    (below : entries < maxOriginEntries) :
    Room entries (part ++ comma :: rest) ↔
      Room (entries + if part.isEmpty then 0 else 1) rest := by
  have count := @Pieces.pieces_append_length _ comma _ part rest absent
  have some : part ++ comma :: rest ≠ [] := by simp
  by_cases empty : rest = []
  · subst empty
    exact iff_of_true (room_separator absent below) (.inl rfl)
  · by_cases none : Pieces.pieces comma rest = []
    · have doubled : [comma, comma] <:+ part ++ comma :: rest := Pieces.doubled_suffix none empty
      simp only [Room, some, count, none, empty, doubled, List.length_nil, not_true_eq_false, and_false,
        false_and, or_false, false_or, ne_eq, Nat.add_zero]
    · have positive : (Pieces.pieces comma rest).length ≠ 0 := mt List.length_eq_zero_iff.mp none
      have whole : Pieces.pieces comma (part ++ comma :: rest) ≠ [] := by
        rw [← List.length_pos_iff, count]
        omega
      simp only [Room, some, empty, none, whole, count, Pieces.doubled_suffix_iff none, false_or, ne_eq,
        not_false_eq_true, true_and, Nat.add_assoc]

/-- The loop accepts exactly the texts that it has room for. -/
theorem splitOriginInfo_ok_iff {entries : List Bytes} {text : Bytes} :
    (∃ result, splitOriginInfo entries text = .ok result) ↔ Room entries.length text := by
  induction length : text.length using Nat.strong_induction_on generalizing entries text with
  | h size ih =>
      have full (nonempty : text ≠ []) (none : maxOriginEntries ≤ entries.length) :
          ¬ (∃ result, splitOriginInfo entries text = .ok result) := by
        intro ⟨result, success⟩
        rw [splitOriginInfo_full nonempty none] at success
        cases success
      rcases text_cases text with rfl | ⟨nonempty, absent⟩ | ⟨part, rest, absent, rfl⟩
      · rw [splitOriginInfo, if_pos rfl]
        exact iff_of_true ⟨_, rfl⟩ (.inl rfl)
      · rw [room_last absent nonempty]
        by_cases below : entries.length < maxOriginEntries
        · rw [splitOriginInfo_last absent nonempty below]
          exact iff_of_true ⟨_, rfl⟩ below
        · exact iff_of_false (full nonempty (Nat.not_lt.mp below)) below
      · by_cases below : entries.length < maxOriginEntries
        · have shorter : rest.length < size := by
            rw [← length, List.length_append, List.length_cons]
            omega
          have pushed : (pushEntry entries part).length =
              entries.length + if part.isEmpty then 0 else 1 := by
            rw [pushEntry_eq]
            cases part <;> simp
          rw [splitOriginInfo_comma absent below, ih rest.length shorter rfl, room_comma absent below,
            pushed]
        · apply iff_of_false (full (by simp) (Nat.not_lt.mp below))
          rintro (empty | less | ⟨equal, some, -⟩)
          · simp at empty
          · omega
          · have positive := List.length_pos_iff.mpr some
            omega

theorem room_zero_iff (text : Bytes) : Room 0 text ↔ Uncrowded text := by
  rw [Room, Uncrowded, Nat.zero_add, maxOriginEntries]
  constructor
  · rintro (rfl | less | ⟨full, -, single⟩)
    · exact .inl (by rw [Pieces.pieces_nil]; decide)
    · exact .inl less
    · exact .inr ⟨full, single⟩
  · rintro (less | ⟨full, single⟩)
    · exact .inr (.inl less)
    · refine .inr (.inr ⟨full, ?_, single⟩)
      intro none
      rw [none] at full
      cases full

/-- Nonempty entries without a comma are not crowded exactly when they are at most 100. -/
theorem uncrowded_join_iff {entries : List Bytes} (free : ∀ entry ∈ entries, comma ∉ entry)
    (nonempty : ∀ entry ∈ entries, entry ≠ []) :
    Uncrowded (Pieces.join comma entries) ↔ entries.length ≤ 100 := by
  constructor
  · intro uncrowded
    rw [Uncrowded, Pieces.pieces_join free nonempty] at uncrowded
    omega
  · intro few
    rw [← room_zero_iff]
    have room : ([] : List Bytes).length + entries.length ≤ maxOriginEntries := by
      rw [List.length_nil, Nat.zero_add]
      exact few
    exact splitOriginInfo_ok_iff.mp ⟨_, splitOriginInfo_join free nonempty room⟩

/-- An encoded challenge is decoded exactly when its origin text is not crowded. -/
theorem deserialize_encoded_iff {challenge : TokenChallenge} {bytes : Bytes}
    (success : challenge.serialize = .ok bytes) :
    (∃ decoded, deserialize bytes = .ok decoded) ↔ Uncrowded challenge.originInfoString := by
  obtain ⟨⟨named, short, fits⟩, rfl⟩ := serialize_eq_ok.mp success
  have accepts := @splitOriginInfo_ok_iff [] challenge.originInfoString
  rw [List.length_nil, room_zero_iff] at accepts
  rw [← accepts]
  constructor
  · intro ⟨decoded, parsed⟩
    exact splitOriginInfo_of_wire named short parsed
  · intro ⟨origins, entries⟩
    exact ⟨_, deserialize_wire named short fits entries⟩

/-- An entry that holds a comma is decoded as two entries. -/
theorem deserialize_encoded_comma :
    (∃ decoded, deserialize (wire 2 [0x69] none [0x61, 0x2C, 0x62]) = .ok decoded) ↔
      Uncrowded [0x61, 0x2C, 0x62] :=
  @deserialize_encoded_iff (create .blindRsa [0x69] none [[0x61, 0x2C, 0x62]]) _
    (serialize_ok ⟨by decide, by decide, by decide⟩)

/-- This challenge has one more origin entry than the decoder takes. -/
def crowded : TokenChallenge := create .blindRsa [0x69] none (List.replicate 101 [0x61])

/-- The encoding of 101 entries of one byte is refused. -/
theorem serialize_crowded_refused : ∃ bytes, crowded.serialize = .ok bytes ∧
    ∀ decoded, deserialize bytes ≠ .ok decoded := by
  have named : crowded.issuerName ≠ [] := List.cons_ne_nil _ _
  have free : ∀ entry ∈ crowded.originInfo, comma ∉ entry := by
    intro entry member
    rw [List.eq_of_mem_replicate member]
    decide
  have nonempty : ∀ entry ∈ crowded.originInfo, entry ≠ [] := by
    intro entry member
    rw [List.eq_of_mem_replicate member]
    exact List.cons_ne_nil _ _
  have encodable : crowded.Encodable := ⟨named, by decide, by decide +kernel⟩
  refine ⟨_, serialize_ok encodable, fun decoded parsed => ?_⟩
  have entries := splitOriginInfo_ok_iff.mp (splitOriginInfo_of_wire named encodable.2.1 parsed)
  have few := (uncrowded_join_iff free nonempty).mp ((room_zero_iff _).mp entries)
  rw [crowded, create, List.length_replicate] at few
  omega

end Crowd
end PrivacyPass.TokenChallenge
