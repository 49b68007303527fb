import SignalDesk.Proofs.Decimal.Text
import SignalDesk.Proofs.Time.Instant
import SignalDesk.Proofs.Uuid
import SignalDesk.Proofs.Wire
import SignalDesk.Risk.Position

/-!
# Positions there and back

A position with instants that the calendar has is read back from its JSON, with the value and the
scale of every amount. A zero with a sign comes back without it, and from then on the text stays.
-/

namespace SignalDesk

theorem PositionStatus.ofText?_toText (status : PositionStatus) :
    ofText? status.toText = some status := by
  cases status <;> rfl

theorem CloseReason.ofText?_toText (reason : CloseReason) : ofText? reason.toText = some reason := by
  cases reason <;> rfl

namespace Decimal

def Same (a b : Decimal) : Prop := a.mantissa = b.mantissa ∧ a.scale = b.scale

private theorem same_unsignZero (a : Decimal) : a.unsignZero.Same a := ⟨a.mantissa_unsignZero, rfl⟩

private theorem ofData?_toText (a : Decimal) : ofData? (.text a.toText) = some a.unsignZero :=
  ofText?_toText a

end Decimal

private theorem Data.exact_ofOption {α : Type} {toData : α → Data} (h : ∀ a, (toData a).Exact)
    (field : Option α) : (ofOption toData field).Exact := by
  cases field with
  | none => trivial
  | some a => exact h a

namespace Position

theorem tag?_text (name : String) : tag? (.text name) = some name := rfl

section Optional

variable {α : Type} (read : Data → Option α) (toData : α → Data) {field : Option α}

private theorem optional?_ofOption {f : α → α} (hnull : ∀ a, toData a ≠ .null)
    (h : ∀ a ∈ field, read (toData a) = some (f a)) :
    optional? read (some (Data.ofOption toData field)) = some (field.map f) := by
  cases field with
  | none => rfl
  | some a =>
    have hread := h a rfl
    have hdata := hnull a
    show optional? read (some (toData a)) = some (some (f a))
    generalize toData a = data at hread hdata
    cases data with
    | null => exact absurd rfl hdata
    | _ => exact congrArg (Option.map some) hread

private theorem optional?_ofOption_self (hnull : ∀ a, toData a ≠ .null)
    (h : ∀ a ∈ field, read (toData a) = some a) :
    optional? read (some (Data.ofOption toData field)) = some field :=
  (optional?_ofOption read toData hnull h).trans (congrArg some Option.map_id')

end Optional

/-- The calendar has the instants of a position. -/
structure Dated (position : Position) : Prop where
  entry : position.entryTs.Proper
  exit : ∀ ts ∈ position.exitTs, ts.Proper

def unsignZeros (position : Position) : Position :=
  { position with
    size := position.size.unsignZero
    contracts := position.contracts.unsignZero
    realizedPnl := position.realizedPnl.map Decimal.unsignZero }

theorem toData_exact (position : Position) : position.toData.Exact := by
  have hprice := Data.exact_ofOption Data.exact_int64 position.exitPrice
  have htext {α : Type} (toText : α → String) (field : Option α) :
      (Data.ofOption (fun a => .text (toText a)) field).Exact :=
    Data.exact_ofOption (fun _ => by simp only [Data.Exact]) field
  simp only [toData, Data.Exact, Data.MembersExact, true_and, and_true]
  exact ⟨Data.exact_int64 _, htext CloseReason.toText _, hprice, htext Instant.toText _,
    htext Decimal.toText _⟩

private theorem instant?_toText {instant : Instant} (h : instant.Proper) :
    instant? (.text instant.toText) = some instant := by
  rw [instant?, Data.string?, Option.bind_some, Instant.ofText?_toText h]

private theorem ofMembers?_toData {position : Position} {members : List (String × Data)}
    (hmembers : position.toData = .table members) (h : position.Dated) :
    ofMembers? members = some position.unsignZeros := by
  replace hmembers := Data.table.inj hmembers
  have hid : Data.find? "id" members = some (.text position.id.toText) := hmembers ▸ rfl
  have hinstrument : Data.find? "instrument" members = some (.text position.instrument) :=
    hmembers ▸ rfl
  have hside : Data.find? "side" members = some (.text position.side.toText) := hmembers ▸ rfl
  have hentryPrice : Data.find? "entryPrice" members = some (.int position.entryPrice.toInt) :=
    hmembers ▸ rfl
  have hentryTs : Data.find? "entryTs" members = some (.text position.entryTs.toText) := hmembers ▸ rfl
  have hsize : Data.find? "size" members = some (.text position.size.toText) := hmembers ▸ rfl
  have hcontracts : Data.find? "contracts" members = some (.text position.contracts.toText) :=
    hmembers ▸ rfl
  have hstatus : Data.find? "status" members = some (.text position.status.toText) := hmembers ▸ rfl
  have hreason : optional? (fun data => (tag? data).bind CloseReason.ofText?)
      (Data.find? "closeReason" members) = some position.closeReason :=
    hmembers ▸ optional?_ofOption_self (fun data => (tag? data).bind CloseReason.ofText?)
      (fun reason => .text reason.toText) nofun fun reason _ => CloseReason.ofText?_toText reason
  have hexitPrice : optional? Data.int64? (Data.find? "exitPrice" members) =
      some position.exitPrice :=
    hmembers ▸ optional?_ofOption_self Data.int64? (fun price => .int price.toInt) nofun fun price _ =>
      Data.int64?_toInt price
  have hexitTs : optional? instant? (Data.find? "exitTs" members) = some position.exitTs :=
    hmembers ▸ optional?_ofOption_self instant? (fun ts => .text ts.toText) nofun fun ts hts =>
      instant?_toText (h.exit ts hts)
  have hpnl : optional? Decimal.ofData? (Data.find? "realizedPnl" members) =
      some (position.realizedPnl.map Decimal.unsignZero) :=
    hmembers ▸ optional?_ofOption Decimal.ofData? (fun pnl => .text pnl.toText) nofun fun pnl _ =>
      Decimal.ofText?_toText pnl
  simp only [ofMembers?, Option.bind_eq_bind, hid, hinstrument, hside, hentryPrice, hentryTs, hsize,
    hcontracts, hstatus, hreason, hexitPrice, hexitTs, hpnl, Option.bind_some, Data.string?, tag?_text,
    Uuid.ofText?_toText, Side.ofText?_toText, Data.int64?_toInt, instant?_toText h.entry,
    Decimal.ofData?_toText, PositionStatus.ofText?_toText]
  rfl

theorem ofData?_table {members : List (String × Data)}
    (h : Data.repeatsKey fieldNames members = false) :
    ofData? (.table members) = ofMembers? members := by
  simp [ofData?, Data.named?, h]

theorem ofData?_toData {position : Position} (h : position.Dated) :
    ofData? position.toData = some position.unsignZeros :=
  (ofData?_table rfl).trans (ofMembers?_toData rfl h)

theorem decode?_encode {position : Position} (h : position.Dated) :
    decode? position.encode = some position.unsignZeros := by
  rw [decode?, encode, Json.read?_write position.toData_exact, Option.bind_some, ofData?_toData h]

private theorem proper_of_instant? {data : Data} {instant : Instant}
    (h : instant? data = some instant) : instant.Proper := by
  obtain ⟨text, -, htext⟩ := Option.bind_eq_some_iff.1 h
  exact Instant.proper_of_ofText? htext

private theorem proper_of_optional? {field : Option Data} {value : Option Instant}
    (h : optional? instant? field = some value) : ∀ ts ∈ value, ts.Proper := by
  intro ts hts
  unfold optional? at h
  split at h
  · cases h
    cases hts
  · cases h
    cases hts
  · obtain ⟨instant, hinstant, rfl⟩ := Option.map_eq_some_iff.1 h
    cases hts
    exact proper_of_instant? hinstant

private theorem dated_of_ofMembers? {members : List (String × Data)} {position : Position}
    (h : ofMembers? members = some position) : position.Dated := by
  unfold ofMembers? at h
  -- the fields before the entry time
  iterate 11 obtain ⟨_, -, h⟩ := Option.bind_eq_some_iff.1 h
  obtain ⟨entryTs, hentry, h⟩ := Option.bind_eq_some_iff.1 h
  -- the fields between the entry time and the exit time
  iterate 9 obtain ⟨_, -, h⟩ := Option.bind_eq_some_iff.1 h
  obtain ⟨exitTs, hexit, h⟩ := Option.bind_eq_some_iff.1 h
  obtain ⟨pnl, -, h⟩ := Option.bind_eq_some_iff.1 h
  cases h
  exact ⟨proper_of_instant? hentry, proper_of_optional? hexit⟩

private theorem dated_of_decode? {text : String} {position : Position}
    (h : decode? text = some position) : position.Dated := by
  obtain ⟨data, -, h⟩ := Option.bind_eq_some_iff.1 h
  unfold ofData? at h
  obtain ⟨members, -, h⟩ := Option.bind_eq_some_iff.1 h
  by_cases hrepeats : Data.repeatsKey fieldNames members = true
  · simp [hrepeats] at h
  · simp only [if_neg hrepeats] at h
    split at h
    · exact dated_of_ofMembers? (Option.ite_none_right_eq_some.1 h).2
    · exact dated_of_ofMembers? h

/-- Equal positions, whose amounts have equal values and equal scales. -/
structure Same (position other : Position) : Prop where
  size : position.size.Same other.size
  contracts : position.contracts.Same other.contracts
  realizedPnl : Option.Rel Decimal.Same position.realizedPnl other.realizedPnl
  rest : { position with
    size := other.size, contracts := other.contracts, realizedPnl := other.realizedPnl } = other

/-- No amount of the position is a zero with a sign. -/
structure Plain (position : Position) : Prop where
  size : position.size.Plain
  contracts : position.contracts.Plain
  realizedPnl : ∀ pnl ∈ position.realizedPnl, pnl.Plain

private theorem same_unsignZeros (position : Position) : position.unsignZeros.Same position where
  size := position.size.same_unsignZero
  contracts := position.contracts.same_unsignZero
  realizedPnl := by
    unfold unsignZeros
    cases position.realizedPnl with
    | none => exact .none
    | some pnl => exact .some pnl.same_unsignZero
  rest := rfl

private theorem plain_unsignZeros (position : Position) : position.unsignZeros.Plain where
  size := position.size.plain_unsignZero
  contracts := position.contracts.plain_unsignZero
  realizedPnl := by
    intro pnl hpnl
    obtain ⟨a, -, rfl⟩ := Option.map_eq_some_iff.1 hpnl
    exact a.plain_unsignZero

private theorem unsignZeros_of_plain {position : Position} (h : position.Plain) :
    position.unsignZeros = position := by
  have hpnl : position.realizedPnl.map Decimal.unsignZero = position.realizedPnl := by
    cases hvalue : position.realizedPnl with
    | none => rfl
    | some pnl => exact congrArg some (Decimal.unsignZero_of_plain (h.realizedPnl pnl hvalue))
  unfold unsignZeros
  rw [Decimal.unsignZero_of_plain h.size, Decimal.unsignZero_of_plain h.contracts, hpnl]

private theorem toData_of_encode {position other : Position} (h : position.encode = other.encode) :
    position.toData = other.toData := by
  have hread (position : Position) : Json.read? position.encode = some position.toData :=
    Json.read?_write position.toData_exact
  rw [← Option.some_inj, ← hread, ← hread, h]

private theorem encode_unsignZeros_iff {position : Position} :
    position.unsignZeros.encode = position.encode ↔ position.Plain := by
  constructor
  · intro h
    have hdata := toData_of_encode h
    simp only [toData, unsignZeros, Data.table.injEq, List.cons.injEq, Prod.mk.injEq, true_and,
      Data.text.injEq] at hdata
    obtain ⟨hsize, hcontracts, hpnl, -⟩ := hdata
    refine ⟨Decimal.plain_of_toText_unsignZero hsize, Decimal.plain_of_toText_unsignZero hcontracts, ?_⟩
    intro pnl hvalue
    rw [hvalue] at hpnl
    exact Decimal.plain_of_toText_unsignZero (Data.text.inj hpnl)
  · intro h
    rw [unsignZeros_of_plain h]

private theorem dated_unsignZeros {position : Position} (h : position.Dated) :
    position.unsignZeros.Dated :=
  ⟨h.entry, h.exit⟩

private theorem dated_of_timestamps {position : Position} {entry : Timestamp}
    {exit : Option Timestamp}
    (hentry : Timestamp.inRange entry = true) (hexit : ∀ ts ∈ exit, Timestamp.inRange ts = true)
    (hentryTs : position.entryTs = .ofTimestamp entry)
    (hexitTs : position.exitTs = exit.map .ofTimestamp) : position.Dated where
  entry := hentryTs ▸ Instant.proper_ofTimestamp hentry
  exit := by
    intro ts hts
    rw [hexitTs] at hts
    obtain ⟨time, htime, rfl⟩ := Option.map_eq_some_iff.1 hts
    exact Instant.proper_ofTimestamp (hexit time htime)

/--
Reading a position undoes writing it. A position at times of whole milliseconds, wherever in the
calendar, comes back with the value and the scale of every amount. So does a position that was read
from whatever text, and it is written again as it was unless one of its amounts is a zero with a sign;
the position that came back then stays as it is.
-/
theorem json_round_trip :
    (∀ (position : Position) (entry : Timestamp) (exit : Option Timestamp),
      Timestamp.inRange entry = true → (∀ ts ∈ exit, Timestamp.inRange ts = true) →
      position.entryTs = .ofTimestamp entry → position.exitTs = exit.map .ofTimestamp →
        ∃ back, decode? position.encode = some back ∧ back.Same position) ∧
    ∀ text position, decode? text = some position →
      ∃ back, decode? position.encode = some back ∧ back.Same position ∧
        (back.encode = position.encode ↔ position.Plain) ∧ decode? back.encode = some back := by
  refine ⟨fun position entry exit hentry hexit hentryTs hexitTs => ?_, fun text position h => ?_⟩
  · exact ⟨position.unsignZeros, decode?_encode (dated_of_timestamps hentry hexit hentryTs hexitTs),
      position.same_unsignZeros⟩
  · have hdated := dated_of_decode? h
    have hagain := decode?_encode (dated_unsignZeros hdated)
    rw [unsignZeros_of_plain position.plain_unsignZeros] at hagain
    exact ⟨position.unsignZeros, decode?_encode hdated, position.same_unsignZeros,
      encode_unsignZeros_iff, hagain⟩

/-- The last time there is and the first, and a list with a leap second west of Greenwich. -/
theorem json_round_trip_of_leap_second :
    let position : Position :=
      { id := ⟨0⟩, instrument := "R\"", side := .no, entryPrice := -1, entryTs := .ofTimestamp latest,
        size := ⟨true, 0, 28, by decide, by decide⟩, contracts := .hundred, status := .closed,
        closeReason := some .timeStop, exitPrice := none, exitTs := some (.ofTimestamp earliest),
        realizedPnl := some .zero }
    let text :=
      "[\"6F8E2F0C8D1A5C3B9F100123456789AB\", \"R\", \"yes\", 50, \"+0012-2-29 22:29:60.25-01:30\"," ++
        "\"-1.50\", \"2e-3\", \"open\", null, null, null, null]"
    let read : Position :=
      { id := ⟨0x6F8E2F0C8D1A5C3B9F100123456789AB⟩, instrument := "R", side := .yes, entryPrice := 50,
        entryTs := ⟨-61783344001, 1250000000⟩, size := ⟨true, 150, 2, by decide, by decide⟩,
        contracts := ⟨false, 2, 3, by decide, by decide⟩, status := .opened, closeReason := none,
        exitPrice := none, exitTs := none, realizedPnl := none }
    (∃ back, decode? position.encode = some back ∧ back.Same position) ∧
      decode? text = some read ∧
      ∃ back, decode? read.encode = some back ∧ back.encode = read.encode := by
  intro position text read
  have hread : decode? text = some read := by decide +kernel
  have hplain : read.Plain := ⟨fun _ => by decide, nofun, nofun⟩
  obtain ⟨back, hback, -, hbytes, -⟩ := json_round_trip.2 text read hread
  exact ⟨json_round_trip.1 position latest (some earliest) (by decide) (by decide) rfl rfl, hread, back,
    hback, hbytes.2 hplain⟩

/-- A negative amount that is rounded to zero is written with its sign, and read back without it. -/
theorem rounded_zero_loses_sign :
    let text :=
      "\x7b\"id\": \"6f8e2f0c-8d1a-5c3b-9f10-0123456789ab\", \"instrument\": \"KX\", \"side\": \"yes\"," ++
        "\"entryPrice\": 50, \"entryTs\": \"2023-11-14T22:13:20Z\", \"size\": \"-0.4e-28\"," ++
        "\"contracts\": \"200\", \"status\": \"open\"\x7d"
    ∃ position back, decode? text = some position ∧ decode? position.encode = some back ∧
      back.encode ≠ position.encode := by
  intro text
  let position : Position :=
    { id := ⟨0x6f8e2f0c8d1a5c3b9f100123456789ab⟩, instrument := "KX", side := .yes, entryPrice := 50,
      entryTs := ⟨1700000000, 0⟩, size := ⟨true, 0, 28, by decide, by decide⟩,
      contracts := ⟨false, 200, 0, by decide, by decide⟩, status := .opened, closeReason := none,
      exitPrice := none, exitTs := none, realizedPnl := none }
  have hread : decode? text = some position := by decide +kernel
  have hback := decode?_encode (dated_of_decode? hread)
  refine ⟨position, position.unsignZeros, hread, hback, fun hbytes => ?_⟩
  exact (encode_unsignZeros_iff.1 hbytes).size rfl rfl

end Position

end SignalDesk
