import SignalDesk.Proofs.Json.RoundTrip
import SignalDesk.Proofs.Record

/-!
# Records there and back

A record that is accepted is written as a message that is accepted as the same record, whatever the
message looked like that it came from.
-/

namespace SignalDesk

namespace Data

theorem fitsInt64_toInt (n : Int64) : fitsInt64 n.toInt = true := by
  have hlow := n.le_toInt
  have hhigh := n.toInt_lt
  simp only [fitsInt64, Bool.and_eq_true, decide_eq_true_eq]
  omega

theorem int64?_toInt (n : Int64) : (Data.int n.toInt).int64? = some n := by
  simp [int64?, int?, fitsInt64_toInt]

theorem uint64?_toNat (n : UInt64) : (Data.int n.toNat).uint64? = some n := by
  have hbounds : (0 : Int) ≤ n.toNat ∧ (n.toNat : Int) < UInt64.size :=
    ⟨Int.natCast_nonneg _, Int.ofNat_lt.2 n.toNat_lt_size⟩
  have hback : ((n.toNat : Int).toNat).toUInt64 = n := by
    rw [Int.toNat_natCast]
    exact UInt64.ofNat_toNat
  rw [uint64?, int?, Option.bind_eq_bind, Option.bind_some, if_pos hbounds, hback]
  rfl

theorem exact_int64 (n : Int64) : (Data.int n.toInt).Exact := by
  have hlow := n.le_toInt
  have hhigh := n.toInt_lt
  simp only [Data.Exact]
  omega

private theorem exact_uint64 (n : UInt64) : (Data.int n.toNat).Exact := by
  have hlt : n.toNat < 18446744073709551616 := n.toNat_lt_size
  simp only [Data.Exact]
  omega

end Data

theorem Side.ofText?_toText (side : Side) : Side.ofText? side.toText = some side := by
  cases side <;> rfl

private theorem Timestamp.ofData?_int {ts : Timestamp} (h : Timestamp.inRange ts = true) :
    Timestamp.ofData? (.int ts) = some ts := by
  simp [Timestamp.ofData?, Data.int?, h]

private theorem Timestamp.exact_int {ts : Int} (h : Timestamp.inRange ts = true) :
    (Data.int ts).Exact := by
  obtain ⟨hearly, hlate⟩ := Timestamp.inRange_iff.1 h
  have hlow : (-8334601228800000 : Int) ≤ ts := hearly
  have hhigh : ts ≤ (8210266876799999 : Int) := hlate
  simp only [Data.Exact]
  omega

theorem Side.ofData?_text (side : Side) : Side.ofData? (.text side.toText) = some side := by
  rw [Side.ofData?, Side.ofText?_toText]

namespace Trade

private theorem ofMembers?_toMembers {trade : Trade} (h : Timestamp.inRange trade.ts = true) :
    ofMembers? (("kind", .text "trade") :: trade.toMembers) = some trade := by
  simp only [ofMembers?, Option.bind_eq_bind, Option.bind_eq_some_iff]
  exact ⟨.text trade.instrument, rfl, _, rfl, .int trade.ts, rfl, _, Timestamp.ofData?_int h,
    .text trade.side.toText, rfl, _, Side.ofData?_text _, .int trade.count.toNat, rfl, _,
    Data.uint64?_toNat _, .int trade.price.toInt, rfl, _, Data.int64?_toInt _, rfl⟩

end Trade

namespace Quote

private theorem volume?_of_find? {key : String} {members : List (String × Data)} {n : Int64}
    (h : Data.find? key members = some (.int n.toInt)) : volume? key members = some n := by
  rw [volume?, h]
  exact Data.int64?_toInt n

private theorem ofMembers?_toMembers {quote : Quote} (h : Timestamp.inRange quote.ts = true) :
    ofMembers? (("kind", .text "quote") :: quote.toMembers) = some quote := by
  simp only [ofMembers?, Option.bind_eq_bind, Option.bind_eq_some_iff]
  exact ⟨.text quote.instrument, rfl, _, rfl, .int quote.ts, rfl, _, Timestamp.ofData?_int h,
    .int quote.price.toInt, rfl, _, Data.int64?_toInt _, .int quote.yesBid.toInt, rfl, _,
    Data.int64?_toInt _, .int quote.yesAsk.toInt, rfl, _, Data.int64?_toInt _, _, volume?_of_find? rfl,
    _, volume?_of_find? rfl, rfl⟩

end Quote

namespace Record

theorem ofData?_table {members : List (String × Data)} {kind : String}
    (hfits : (Data.table members).fits maxMessageDepth = true)
    (hkind : Data.valuesOf "kind" members = [.text kind]) :
    ofData? (.table members) = ofFields? kind (.table members) := by
  unfold ofData?
  rw [if_neg (by rw [hfits]; decide)]
  simp only [hkind]

private theorem ofFields?_trade {members : List (String × Data)} {trade : Trade}
    (hrepeats : Data.repeatsKey Trade.fieldNames members = false)
    (hmembers : Trade.ofMembers? members = some trade) :
    ofFields? "trade" (.table members) = some (.trade trade) := by
  simp [ofFields?, Data.named?, hrepeats, hmembers]

private theorem ofFields?_quote {members : List (String × Data)} {quote : Quote}
    (hrepeats : Data.repeatsKey Quote.fieldNames members = false)
    (hmembers : Quote.ofMembers? members = some quote) :
    ofFields? "quote" (.table members) = some (.quote quote) := by
  simp [ofFields?, Data.named?, hrepeats, hmembers]

theorem ofData?_toData {record : Record} (h : Timestamp.inRange record.ts = true) :
    ofData? record.toData = some record := by
  cases record with
  | trade trade =>
    exact (ofData?_table rfl rfl).trans (ofFields?_trade rfl (Trade.ofMembers?_toMembers h))
  | quote quote =>
    exact (ofData?_table rfl rfl).trans (ofFields?_quote rfl (Quote.ofMembers?_toMembers h))

theorem toData_exact {record : Record} (h : Timestamp.inRange record.ts = true) :
    record.toData.Exact := by
  cases record with
  | trade trade =>
    exact ⟨trivial, trivial, Timestamp.exact_int h, trivial, Data.exact_uint64 _, Data.exact_int64 _, trivial⟩
  | quote quote =>
    exact ⟨trivial, trivial, Timestamp.exact_int h, Data.exact_int64 _, Data.exact_int64 _, Data.exact_int64 _,
      Data.exact_int64 _, Data.exact_int64 _, trivial⟩

theorem decode?_encode {record : Record} (h : Timestamp.inRange record.ts = true) :
    decode? record.encode = some record := by
  rw [decode?, encode, Json.read?_write (toData_exact h)]
  exact ofData?_toData h

private theorem parse_encode {record : Record} (h : record.Accepted) :
    parse record.encode = .ok record :=
  parse_ok_iff.2 ⟨decode?_encode h.dated, h.valid⟩

/--
Writing a record undoes reading it. Whatever a message looked like that is accepted, its record is
written as a message that is accepted as the same record, and that message is written again as it is.
Every valid record with a time that the calendar has is the one that its own message stands for.
-/
theorem wire_round_trip :
    (∀ message record, parse message = .ok record →
      parse record.encode = .ok record ∧
        (parse record.encode).map encode = .ok record.encode) ∧
    ∀ record : Record, record.Accepted → parse record.encode = .ok record := by
  refine ⟨fun message record h => ?_, fun record => parse_encode⟩
  have hback := parse_encode (parse_accepted h)
  exact ⟨hback, by rw [hback]; rfl⟩

/-- A quote as a list, with escapes in the name and without volumes, and the last time there is. -/
theorem wire_round_trip_of_short_quote :
    let message := "[\"ticker\", \"R\\u00e4\\ud83d\\ude00\\n\", -1, 5, 1, 9]"
    let quote : Record := .quote ⟨"Rä😀\n", -1, 5, 1, 9, 0, 0⟩
    let trade : Record := .trade ⟨"RAIN", latest, .no, 1000000000, 99⟩
    parse message = .ok quote ∧ parse quote.encode = .ok quote ∧ parse trade.encode = .ok trade := by
  intro message quote trade
  have hmessage : parse message = .ok quote := parse_ok_iff.2 (by decide +kernel)
  exact ⟨hmessage, (wire_round_trip.1 message quote hmessage).1,
    wire_round_trip.2 trade (by decide +kernel)⟩

end Record

end SignalDesk
