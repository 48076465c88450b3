import JobLedger.Proofs.Frame
import JobLedger.Proofs.Operation
import JobLedger.Proofs.Tokens.Replaced

/-!
# Tokens as values

With a codec for each end, the tokens of a step are values. What lawful codecs write is read back,
and an absent value as an absent one, also where the values of a codec are optional themselves. A
value that cannot be written leaves the store alone. Whatever wrote a token, it is given as a value
only if its own codec accepts it.
-/

namespace JobLedger

open JobLedger.Action Text

namespace Codec

variable {α : Type}

/-- Octets are their own written form. -/
theorem lawful_raw : raw.Lawful := fun _ _ h => congrArg Except.ok (Except.ok.inj h).symm

/-- Optional octets are read back from their frame. -/
theorem lawful_frame : frame.Lawful := fun _ _ h => Frame.decode_eq_ok_iff.mpr h

/-- If there is a value, the codec writes octets for it that there is room for. -/
def Writes (codec : Codec α) (room : Octets → Prop) (value : Option α) : Prop :=
  ∀ a ∈ value, ∃ token, codec.encode a = .ok token ∧ room token

/-- A missing value is written as a missing token. -/
@[simp] theorem writes_none {codec : Codec α} {room : Octets → Prop} :
    codec.Writes room none := by
  simp [Writes]

/-- A value is written if its codec gives a token, and there is room for it. -/
@[simp] theorem writes_some {codec : Codec α} {room : Octets → Prop} {a : α} :
    codec.Writes room (some a) ↔ ∃ token, codec.encode a = .ok token ∧ room token := by
  simp [Writes]

/-- The codec reads a token as a value, and none as none. -/
def Accepts (codec : Codec α) (token : Option Octets) (value : Option α) : Prop :=
  Option.Rel (fun octets a => codec.decode octets = .ok a) token value

end Codec

/-! ## Going over to tokens and back -/

section Convert

variable {α β γ δ : Type}

/-- There is something, and it gives a fault. -/
def FailsOn (f : α → Except BlobFault β) (x : Option α) (fault : BlobFault) : Prop :=
  ∃ a ∈ x, f a = .error fault

/-- The end of a pair that has a fault: the writer only where there is none at the reader. -/
inductive AtFault (reader writer : BlobFault → Prop) : CheckpointKind → BlobFault → Prop where
  | reader {fault} : reader fault → AtFault reader writer .reader fault
  | writer {fault} : (∀ other, ¬ reader other) → writer fault → AtFault reader writer .writer fault

namespace Checkpoint

/-- What a token is made of, or made into, if there is anything. -/
def convert (kind : LedgerError.Kind) (place : BlobPlace) (f : α → Except BlobFault β) :
    Option α → Except LedgerError (Option β)
  | none => .ok none
  | some a =>
    match f a with
    | .ok b => .ok (some b)
    | .error fault => .error ⟨kind, .blob place fault⟩

/-- The same at both ends of a step, the reader first. -/
def convertPair (kind : LedgerError.Kind) (id : InstanceId) (step : String)
    (f : α → Except BlobFault β) (g : γ → Except BlobFault δ) (x : Option α) (y : Option γ) :
    Except LedgerError (Option β × Option δ) := do
  let read ← convert kind (.tokenOf id step .reader) f x
  let written ← convert kind (.tokenOf id step .writer) g y
  .ok (read, written)

variable {kind : LedgerError.Kind} {f : α → Except BlobFault β} {g : γ → Except BlobFault δ}

/-- A conversion succeeds if there is nothing to convert, or if it can be converted. -/
theorem convert_eq_ok_iff {place : BlobPlace} {x : Option α} {y : Option β} :
    convert kind place f x = .ok y ↔ Option.Rel (fun a b => f a = .ok b) x y := by
  cases x with
  | none =>
    rw [convert, Except.ok.injEq]
    constructor
    · rintro rfl
      exact .none
    · intro h
      cases h
      rfl
  | some a =>
    constructor
    · intro h
      cases hfa : f a with
      | ok b =>
        rw [convert, hfa] at h
        obtain rfl := Except.ok.inj h
        exact .some hfa
      | error fault =>
        rw [convert, hfa] at h
        cases h
    · intro h
      cases h with
      | some hfa => rw [convert, hfa]

/-- Something is made of what there is, unless it gives a fault. -/
theorem convert_cases (kind : LedgerError.Kind) (place : BlobPlace) (f : α → Except BlobFault β)
    (x : Option α) :
    (∃ y, convert kind place f x = .ok y ∧ ∀ fault, ¬ FailsOn f x fault) ∨
      ∃ fault, convert kind place f x = .error ⟨kind, .blob place fault⟩ ∧ FailsOn f x fault := by
  cases x with
  | none => exact .inl ⟨none, rfl, fun fault ⟨a, ha, _⟩ => nomatch ha⟩
  | some a =>
    cases hfa : f a with
    | error fault => exact .inr ⟨fault, by rw [convert, hfa], a, rfl, hfa⟩
    | ok b =>
      refine .inl ⟨some b, by rw [convert, hfa], fun fault hfails => ?_⟩
      obtain ⟨other, hother, hfault⟩ := hfails
      rw [← Option.some.inj hother, hfa] at hfault
      cases hfault

variable {id : InstanceId} {step : String}

/-- Both ends are converted, or none is. -/
theorem convertPair_eq_ok_iff {x : Option α} {y : Option γ} {read : Option β}
    {written : Option δ} : convertPair kind id step f g x y = .ok (read, written) ↔
      Option.Rel (fun a b => f a = .ok b) x read ∧ Option.Rel (fun a b => g a = .ok b) y written := by
  simp only [convertPair, bind_eq_ok_iff, convert_eq_ok_iff, Except.ok.injEq, Prod.mk.injEq]
  constructor
  · rintro ⟨_, hread, _, hwritten, rfl, rfl⟩
    exact ⟨hread, hwritten⟩
  · rintro ⟨hread, hwritten⟩
    exact ⟨_, hread, _, hwritten, rfl, rfl⟩

/-- Something is made of what there is at both ends, unless one of them is at fault. -/
theorem convertPair_cases (kind : LedgerError.Kind) (id : InstanceId) (step : String)
    (f : α → Except BlobFault β) (g : γ → Except BlobFault δ) (x : Option α) (y : Option γ) :
    (∃ read written, convertPair kind id step f g x y = .ok (read, written) ∧
      ∀ fault, ¬ FailsOn f x fault ∧ ¬ FailsOn g y fault) ∨
    ∃ side fault, AtFault (FailsOn f x) (FailsOn g y) side fault ∧
      convertPair kind id step f g x y = .error ⟨kind, .blob (.tokenOf id step side) fault⟩ := by
  rcases convert_cases kind (.tokenOf id step .reader) f x with
    ⟨read, hread, hreads⟩ | ⟨fault, hread, hfails⟩
  · rcases convert_cases kind (.tokenOf id step .writer) g y with
      ⟨written, hwritten, hwrites⟩ | ⟨fault, hwritten, hfails⟩
    · refine .inl ⟨read, written, ?_, fun fault => ⟨hreads fault, hwrites fault⟩⟩
      rw [convertPair, hread, ok_bind, hwritten, ok_bind]
    · refine .inr ⟨_, fault, .writer hreads hfails, ?_⟩
      rw [convertPair, hread, ok_bind, hwritten]
      rfl
  · refine .inr ⟨_, fault, .reader hfails, ?_⟩
    rw [convertPair, hread]
    rfl

end Checkpoint

end Convert

namespace Checkpoint

variable {σ : Type} [LedgerStore σ] {s : σ} {α β : Type} {id : InstanceId} {step : String}

/-- Encoding is a conversion, and what it cannot convert is invalid. -/
theorem encodeToken_eq (codec : Codec α) (place : BlobPlace) :
    encodeToken codec place = convert .invalid place codec.encode := by
  funext value
  cases value with
  | none => rfl
  | some a =>
    cases hencode : codec.encode a with
    | ok token => rw [encodeToken, convert, hencode]
    | error fault => rw [encodeToken, convert, hencode]

/-- Decoding is a conversion, and what it cannot convert is damaged. -/
theorem decodeToken_eq (codec : Codec α) (place : BlobPlace) :
    decodeToken codec place = convert .decodeFailure place codec.decode := by
  funext token
  cases token with
  | none => rfl
  | some octets =>
    cases hdecode : codec.decode octets with
    | ok value => rw [decodeToken, convert, hdecode]
    | error fault => rw [decodeToken, convert, hdecode]

/-- Both values are written before anything else is done. -/
theorem updateEncoded_eq (reader : Codec α) (writer : Codec β) (id : InstanceId) (step : String)
    (read : Option α) (written : Option β) :
    (updateEncoded reader writer id step read written : Action LedgerError σ Unit) =
      Action.ofExcept (convertPair .invalid id step reader.encode writer.encode read written) >>=
        fun tokens => update id step ⟨tokens.1, tokens.2⟩ := by
  rw [updateEncoded, encodeToken_eq, encodeToken_eq, convertPair]
  cases convert .invalid (.tokenOf id step .reader) reader.encode read with
  | error e => rfl
  | ok readerToken =>
    cases convert .invalid (.tokenOf id step .writer) writer.encode written with
    | error e => rfl
    | ok writerToken => rfl

section Named

variable (hname : stepNameFault? step = none)

include hname

/-- The tokens that are found are read. -/
theorem answer_getDecoded {pair : CheckpointPair}
    (hfound : (perform (.findPair id step) s).answer = .ok (some pair)) (reader : Codec α)
    (writer : Codec β) :
    (getDecoded reader writer id step s).answer =
      convertPair .decodeFailure id step reader.decode writer.decode pair.reader pair.writer := by
  have hget : (get id step s).answer = .ok pair := by
    rw [get, ensureStepName_bind (ensureStepName_of_none hname), (bind_ok hfound _).1]
    rfl
  rw [getDecoded, (bind_ok hget _).1, decodeToken_eq, decodeToken_eq, convertPair]
  cases convert .decodeFailure (.tokenOf id step .reader) reader.decode pair.reader with
  | error e => rfl
  | ok read =>
    cases convert .decodeFailure (.tokenOf id step .writer) writer.decode pair.writer with
    | error e => rfl
    | ok written => rfl

/-- The store writes the tokens, and nothing else is done to it. -/
theorem update_of_perform {pair : CheckpointPair}
    (hupdate : (perform (.updatePair id step pair) s).answer = .ok ()) :
    (update id step pair s).answer = .ok () ∧
      (update id step pair s).state = (perform (.updatePair id step pair) s).state := by
  rw [update, ensureStepName_bind (ensureStepName_of_none hname), (bind_ok hupdate _).1,
    (bind_ok hupdate _).2]
  exact ⟨rfl, rfl⟩

end Named

end Checkpoint

/-- What values come to on a store that has room for some octets, with any codec for each end. -/
structure TypesTokens {σ : Type} [LedgerStore σ] (room : Octets → Prop) (s : σ) : Prop where
  /-- Values that lawful codecs write are read back, absent ones as absent, and the tokens of other
  steps are as before. -/
  readsBack {α β : Type} {reader : Codec α} {writer : Codec β} {id : InstanceId} {step : String}
      {old : CheckpointPair} {read : Option α} {written : Option β} :
    reader.Lawful → writer.Lawful → stepNameFault? step = none →
    (perform (.findPair id step) s).answer = .ok (some old) →
    reader.Writes room read → writer.Writes room written →
    let outcome := Checkpoint.updateEncoded reader writer id step read written s
    outcome.answer = .ok () ∧
      (Checkpoint.getDecoded reader writer id step outcome.state).answer = .ok (read, written) ∧
      ∀ other name, (other, name) ≠ (id, step) →
        (perform (.findPair other name) outcome.state).answer =
          (perform (.findPair other name) s).answer
  /-- A value that its codec fails to write is refused, and the store is left as it was. -/
  refuses {α β : Type} {reader : Codec α} {writer : Codec β} {read : Option α}
      {written : Option β} (id : InstanceId) (step : String) :
    (∃ fault, FailsOn reader.encode read fault ∨ FailsOn writer.encode written fault) →
    let outcome := Checkpoint.updateEncoded reader writer id step read written s
    ∃ side fault, AtFault (FailsOn reader.encode read) (FailsOn writer.encode written) side fault ∧
      outcome.answer = .error ⟨.invalid, .blob (.tokenOf id step side) fault⟩ ∧ outcome.state = s
  /-- Values are given exactly if both tokens are accepted as values. -/
  gives {α β : Type} {reader : Codec α} {writer : Codec β} {id : InstanceId} {step : String}
      {pair : CheckpointPair} {read : Option α} {written : Option β} :
    stepNameFault? step = none → (perform (.findPair id step) s).answer = .ok (some pair) →
    ((Checkpoint.getDecoded reader writer id step s).answer = .ok (read, written) ↔
      reader.Accepts pair.reader read ∧ writer.Accepts pair.writer written)
  /-- Tokens that are not both accepted are a failure, at the end whose codec rejects its token. -/
  rejects {α β : Type} {reader : Codec α} {writer : Codec β} {id : InstanceId} {step : String}
      {pair : CheckpointPair} :
    stepNameFault? step = none → (perform (.findPair id step) s).answer = .ok (some pair) →
    (∀ read written, ¬ (reader.Accepts pair.reader read ∧ writer.Accepts pair.writer written)) →
    ∃ side fault,
      AtFault (FailsOn reader.decode pair.reader) (FailsOn writer.decode pair.writer) side fault ∧
        (Checkpoint.getDecoded reader writer id step s).answer =
          .error ⟨.decodeFailure, .blob (.tokenOf id step side) fault⟩

/-- Octets that are written for a value are read back as that value by a lawful codec, and there is
room for them. -/
theorem Codec.Writes.exists_token {α : Type} {codec : Codec α} {room : Octets → Prop}
    {value : Option α} (h : codec.Writes room value) (hlawful : codec.Lawful) :
    ∃ token, Option.Rel (fun a octets => codec.encode a = .ok octets) value token ∧
      (∀ octets ∈ token, room octets) ∧ codec.Accepts token value := by
  cases value with
  | none => exact ⟨none, .none, nofun, .none⟩
  | some a =>
    obtain ⟨octets, hoctets, hroom⟩ := Codec.writes_some.mp h
    exact ⟨some octets, .some hoctets, fun _ hmem => Option.some.inj hmem ▸ hroom,
      .some (hlawful a octets hoctets)⟩

/-- A store whose pairs can be replaced keeps values for any codecs. -/
theorem ReplacesPairs.typesTokens {σ : Type} [LedgerStore σ] {room : Octets → Prop} {s : σ}
    (h : ReplacesPairs room s) : TypesTokens room s where
  readsBack {_ _ reader writer id step _ read written} hreader hwriter hname hfound hread
      hwritten := by
    obtain ⟨readerToken, hreaderToken, hreaderRoom, hreaderAccepts⟩ := hread.exists_token hreader
    obtain ⟨writerToken, hwriterToken, hwriterRoom, hwriterAccepts⟩ := hwritten.exists_token hwriter
    -- The pair of the new tokens takes the place of the old one, and is what is found there.
    have hroom (kind : CheckpointKind) :
        ∀ token ∈ CheckpointPair.token ⟨readerToken, writerToken⟩ kind, room token := by
      cases kind with
      | reader => exact hreaderRoom
      | writer => exact hwriterRoom
    obtain ⟨hperform, hafter⟩ := h _ _ _ hfound ⟨readerToken, writerToken⟩ hroom
    obtain ⟨hanswer, hstate⟩ := Checkpoint.update_of_perform hname hperform
    intro outcome
    have hencoded : outcome = Checkpoint.update id step ⟨readerToken, writerToken⟩ s := by
      change Checkpoint.updateEncoded reader writer id step read written s = _
      rw [Checkpoint.updateEncoded_eq,
        Checkpoint.convertPair_eq_ok_iff.mpr ⟨hreaderToken, hwriterToken⟩, ofExcept_ok_bind]
    have hagain := (hafter id step).trans (if_pos rfl)
    rw [hencoded, hstate]
    refine ⟨hanswer, ?_, fun other name hother => (hafter other name).trans (if_neg hother)⟩
    rw [Checkpoint.answer_getDecoded hname hagain, Checkpoint.convertPair_eq_ok_iff]
    exact ⟨hreaderAccepts, hwriterAccepts⟩
  refuses {_ _ reader writer read written} id step hfails := by
    rw [Checkpoint.updateEncoded_eq]
    rcases Checkpoint.convertPair_cases .invalid id step reader.encode writer.encode read written
      with ⟨_, _, _, hnone⟩ | ⟨side, fault, hfault, herror⟩
    · obtain ⟨fault, hreader | hwriter⟩ := hfails
      · exact absurd hreader (hnone fault).1
      · exact absurd hwriter (hnone fault).2
    · rw [herror, ofExcept_error_bind]
      exact ⟨side, fault, hfault, rfl, rfl⟩
  gives hname hfound := by
    rw [Checkpoint.answer_getDecoded hname hfound, Checkpoint.convertPair_eq_ok_iff]
    rfl
  rejects {_ _ reader writer id step pair} hname hfound hnone := by
    rw [Checkpoint.answer_getDecoded hname hfound]
    rcases Checkpoint.convertPair_cases .decodeFailure id step reader.decode writer.decode
      pair.reader pair.writer with ⟨read, written, hboth, _⟩ | hfault
    · exact absurd (Checkpoint.convertPair_eq_ok_iff.mp hboth) (hnone read written)
    · exact hfault

/-- Every ledger in memory, every ledger in a file that a session has to itself, and every one that a
session on a new file has come to, keeps values for any codecs. A file has room for the octets that a
frame holds. -/
theorem typesTokens_everyStore :
    (∀ m : Memory, TypesTokens (fun _ => True) m) ∧
    (∀ {t : FileTree} {place : Place} {f : LedgerFile} (readers : List Bool),
      t.Undisturbed place f → TypesTokens (fun token => token.length < UInt32.size)
        (OpenLedger.mk t (.ledger (.file place) true readers))) ∧
    ∀ {t : FileTree} {settings : StoreSettings} {place : Place} {l : OpenLedger},
      l.OpenedAt t settings place → ∀ operations : List Operation,
        TypesTokens (fun token => token.length < UInt32.size) (Operation.run l operations) := by
  refine ⟨fun m => m.replacesPairs.typesTokens, fun readers h =>
    (OpenLedger.replacesPairs h).typesTokens, ?_⟩
  intro t settings place l hl operations
  obtain ⟨m, hcarries⟩ := hl.carries_run operations
  obtain ⟨place, readers, f, hsession, hundisturbed, -⟩ := hcarries.holds
  have heq : Operation.run l operations =
      ⟨(Operation.run l operations).files, .ledger (.file place) true readers⟩ := by
    rw [← hsession]
  rw [heq]
  exact (OpenLedger.replacesPairs hundisturbed).typesTokens

/-- A framed absence is kept as a value beside no value at all. A map that cannot be written is
refused, and the octets beside it are not written either. -/
theorem typesTokens_atStart :
    let id : InstanceId := ⟨1, by decide, by decide⟩
    let reached := Operation.run OpenLedger.atStart
      [.call (.createInstance "load" "nightly" none), .createCheckpoint id "copy"]
    let kept := Checkpoint.updateEncoded Codec.frame Codec.raw id "copy" (some none) none reached
    let refused := Checkpoint.updateEncoded Codec.raw Codec.pairMap id "copy" (some [1])
      (some [((1, 2), 3)]) reached
    TypesTokens (fun token => token.length < UInt32.size) reached ∧
      (Checkpoint.getDecoded Codec.frame Codec.raw id "copy" kept.state).answer =
        .ok (some none, none) ∧
      refused.state = reached := by
  intro id reached kept refused
  have htypes := typesTokens_everyStore.2.2 OpenLedger.openedAt_atStart
    [.call (.createInstance "load" "nightly" none), .createCheckpoint id "copy"]
  have hfound : (perform (.findPair id "copy") reached).answer = .ok (some ⟨none, none⟩) :=
    eq_ok_of_toOption (by decide +kernel)
  have hread : Codec.frame.Writes (fun token => token.length < UInt32.size) (some none) :=
    Codec.writes_some.mpr ⟨_, rfl, by decide⟩
  have hfails : ∃ fault, FailsOn Codec.raw.encode (some [1]) fault ∨
      FailsOn Codec.pairMap.encode (some [((1, 2), 3)]) fault := ⟨_, .inr ⟨_, rfl, rfl⟩⟩
  refine ⟨htypes, ?_, ?_⟩
  · exact (htypes.readsBack Codec.lawful_frame Codec.lawful_raw (by decide) hfound hread
      Codec.writes_none).2.1
  · obtain ⟨_, _, _, _, hstate⟩ := htypes.refuses id "copy" hfails
    exact hstate

end JobLedger
