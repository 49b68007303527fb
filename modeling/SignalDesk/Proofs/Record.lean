import SignalDesk.Market.Wire

/-!
# Accepted records

A message that is accepted holds a valid record with a time that the calendar has.
-/

namespace SignalDesk

private theorem Timestamp.ofData?_inRange {data : Data} {ts : Timestamp}
    (h : Timestamp.ofData? data = some ts) : Timestamp.inRange ts = true := by
  simp only [Timestamp.ofData?, Option.bind_eq_bind, Option.bind_eq_some_iff] at h
  obtain ⟨n, -, h⟩ := h
  split at h
  · rename_i hrange
    cases h
    exact hrange
  · cases h

theorem Timestamp.inRange_iff {ts : Timestamp} :
    Timestamp.inRange ts = true ↔ earliest ≤ ts ∧ ts ≤ latest := by
  simp [Timestamp.inRange]

private theorem Trade.ofMembers?_inRange {members : List (String × Data)} {trade : Trade}
    (h : Trade.ofMembers? members = some trade) : Timestamp.inRange trade.ts = true := by
  simp only [Trade.ofMembers?, Option.bind_eq_bind, Option.bind_eq_some_iff, Option.pure_def,
    Option.some.injEq] at h
  obtain ⟨_, _, _, _, _, -, ts, hts, _, -, _, -, _, -, _, -, _, -, _, -, rfl⟩ := h
  exact Timestamp.ofData?_inRange hts

private theorem Quote.ofMembers?_inRange {members : List (String × Data)} {quote : Quote}
    (h : Quote.ofMembers? members = some quote) : Timestamp.inRange quote.ts = true := by
  simp only [Quote.ofMembers?, Option.bind_eq_bind, Option.bind_eq_some_iff, Option.pure_def,
    Option.some.injEq] at h
  obtain ⟨_, _, _, _, _, -, ts, hts, _, -, _, -, _, -, _, -, _, -, _, -, _, -, _, -, rfl⟩ := h
  exact Timestamp.ofData?_inRange hts

namespace Record

private theorem ofFields?_cases {kind : String} {data : Data} {record : Record}
    (h : ofFields? kind data = some record) :
    ∃ members, (∃ trade, Trade.ofMembers? members = some trade ∧ record = .trade trade) ∨
      ∃ quote, Quote.ofMembers? members = some quote ∧ record = .quote quote := by
  simp only [ofFields?, Option.bind_eq_bind, Option.pure_def] at h
  generalize (if (kind == "trade") = true then Trade.fieldNames else Quote.fieldNames) = names at h
  split at h
  · cases h
  · obtain ⟨members, -, h⟩ := Option.bind_eq_some_iff.1 h
    split at h
    · cases h
    · refine ⟨members, ?_⟩
      split at h
      · obtain ⟨trade, htrade, h⟩ := Option.bind_eq_some_iff.1 h
        exact .inl ⟨trade, htrade, (Option.some.inj h).symm⟩
      · obtain ⟨quote, hquote, h⟩ := Option.bind_eq_some_iff.1 h
        exact .inr ⟨quote, hquote, (Option.some.inj h).symm⟩

private theorem decode?_cases {message : String} {record : Record}
    (h : decode? message = some record) : ∃ kind data, ofFields? kind data = some record := by
  obtain ⟨data, -, h⟩ := Option.bind_eq_some_iff.1 h
  unfold ofData? at h
  split at h
  · cases h
  · split at h
    · split at h
      · exact ⟨_, _, h⟩
      · cases h
    · rename_i kind fields _
      generalize (if (kind == "trade") = true then Trade.fieldNames else Quote.fieldNames) = names at h
      split at h
      · cases h
      · exact ⟨_, _, h⟩
    · cases h

private theorem decode?_inRange {message : String} {record : Record}
    (h : decode? message = some record) : Timestamp.inRange record.ts = true := by
  obtain ⟨kind, data, hfields⟩ := decode?_cases h
  obtain ⟨members, ⟨trade, htrade, rfl⟩ | ⟨quote, hquote, rfl⟩⟩ := ofFields?_cases hfields
  · exact Trade.ofMembers?_inRange htrade
  · exact Quote.ofMembers?_inRange hquote

/-- What an engine works on: a valid record with a time that the calendar has. -/
structure Accepted (record : Record) : Prop where
  valid : record.isValid = true
  dated : Timestamp.inRange record.ts = true

instance (record : Record) : Decidable record.Accepted :=
  decidable_of_iff (record.isValid = true ∧ Timestamp.inRange record.ts = true)
    ⟨fun h => ⟨h.1, h.2⟩, fun h => ⟨h.valid, h.dated⟩⟩

theorem Accepted.count_bounds {trade : Trade} (h : (Record.trade trade).Accepted) :
    0 < trade.count ∧ trade.count ≤ maxTradeCount := by
  have hfault : (Record.trade trade).fault? = none := Option.isNone_iff_eq_none.1 h.valid
  unfold fault? at hfault
  split at hfault
  · cases hfault
  · have htrade : trade.fault? = none := hfault
    unfold Trade.fault? at htrade
    split at htrade
    · cases htrade
    · rename_i hsome
      split at htrade
      · cases htrade
      · rename_i hfew
        exact ⟨UInt64.pos_iff_ne_zero.2 hsome, UInt64.not_lt.1 hfew⟩

theorem parse_ok_iff {message : String} {record : Record} :
    parse message = .ok record ↔ decode? message = some record ∧ record.isValid = true := by
  unfold parse isValid
  cases hdecode : decode? message with
  | none => simp
  | some other =>
    cases hfault : other.fault? with
    | some fault =>
      simp only [hfault, reduceCtorEq, Option.some.injEq, false_iff, not_and]
      rintro rfl
      simp [hfault]
    | none =>
      simp only [hfault, Except.ok.injEq, Option.some.injEq, iff_self_and]
      rintro rfl
      simp [hfault]

theorem parse_accepted {message : String} {record : Record} (h : parse message = .ok record) :
    record.Accepted := by
  obtain ⟨hdecode, hvalid⟩ := parse_ok_iff.1 h
  exact ⟨hvalid, decode?_inRange hdecode⟩

end Record

end SignalDesk
