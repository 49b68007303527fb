import SignalDesk.Json.Reader
import SignalDesk.Json.Writer
import SignalDesk.Proofs.Numeral

/-!
# Reading what was written

The reader gives back every value that the writer has written, to any depth, as long as the value
has no floats and its integers are of 64 bits.
-/

namespace SignalDesk

namespace Data

mutual

/-- Values without floats and without integers beyond 64 bits. -/
def Exact : Data → Prop
  | .null => True
  | .bool _ => True
  | .int n => -9223372036854775808 ≤ n ∧ n < 18446744073709551616
  | .float _ => False
  | .text _ => True
  | .list items => ItemsExact items
  | .table members => MembersExact members
  | .unreadable => False

def ItemsExact : List Data → Prop
  | [] => True
  | item :: items => item.Exact ∧ ItemsExact items

def MembersExact : List (String × Data) → Prop
  | [] => True
  | (_, value) :: members => value.Exact ∧ MembersExact members

end

end Data

namespace Json

variable {float : Written → Data}

private theorem consChar_some (c : Char) (read : Option (List Char) × List Char) :
    consChar (some c) read = (read.1.map (c :: ·), read.2) := by
  cases read with
  | mk content rest => cases content <;> rfl

private theorem readString?_plain {c : Char} (hquote : c ≠ '"') (hslash : c ≠ '\\') (hlow : ¬ c < ' ')
    (rest : List Char) :
    readString? none (c :: rest) = (readString? none rest).map (consChar (some c)) := by
  have hplain : ¬ (decide (c < ' ') || c == '\\') = true := by simp [hlow, hslash]
  rw [readString?, if_neg hplain]
  · cases readString? none rest <;> rfl
  · simp [hquote]
  · simp [hslash]
  · simp [hslash]

private theorem readString?_escaped {name c : Char} (hname : escapedChar? name = some c)
    (hu : name ≠ 'u') (rest : List Char) :
    readString? none ('\\' :: name :: rest) = (readString? none rest).map (consChar (some c)) := by
  rw [readString?, hname]
  · cases readString? none rest <;> rfl
  · simp [hu]

private theorem hexDigits_of_lt : ∀ n < 32, ∃ a b c d, hexDigits 4 n = [a, b, c, d] ∧
    hexNumber? [a, b, c, d] = some n := by
  have h : ∀ n < 32, hexNumber? (hexDigits 4 n) = some n := by decide
  exact fun n hn => ⟨_, _, _, _, rfl, h n hn⟩

private theorem readString?_control {c : Char} (h : c < ' ') (rest : List Char) :
    readString? none ('\\' :: 'u' :: hexDigits 4 c.toNat ++ rest) =
      (readString? none rest).map (consChar (some c)) := by
  have hlt : c.toNat < 32 := h
  obtain ⟨x, y, z, w, hdigits, hnumber⟩ := hexDigits_of_lt c.toNat hlt
  have hhigh : ¬ isHighSurrogate c.toNat = true := by
    simp only [isHighSurrogate, Bool.and_eq_true, decide_eq_true_eq]
    omega
  have hlow : ¬ isLowSurrogate c.toNat = true := by
    simp only [isLowSurrogate, Bool.and_eq_true, decide_eq_true_eq]
    omega
  rw [hdigits]
  simp only [List.cons_append, List.nil_append]
  rw [readString?, hnumber, Option.bind_eq_bind, Option.bind_some]
  simp only [if_neg hhigh, if_neg hlow, Char.ofNat_toNat]
  cases readString? none rest <;> rfl

private theorem readString?_escapeChar (c : Char) (rest : List Char) :
    readString? none (escapeChar c ++ rest) = (readString? none rest).map (consChar (some c)) := by
  unfold escapeChar
  split
  · exact readString?_escaped rfl (by decide) rest
  · exact readString?_escaped rfl (by decide) rest
  · exact readString?_escaped rfl (by decide) rest
  · exact readString?_escaped rfl (by decide) rest
  · exact readString?_escaped rfl (by decide) rest
  · exact readString?_escaped rfl (by decide) rest
  · exact readString?_escaped rfl (by decide) rest
  · rename_i hquote hslash _ _ _ _ _
    split
    · rename_i hlow
      exact readString?_control hlow rest
    · rename_i hlow
      exact readString?_plain hquote hslash hlow rest

private theorem readString?_flatMap_escapeChar (content rest : List Char) :
    readString? none (content.flatMap escapeChar ++ '"' :: rest) = some (some content, rest) := by
  induction content with
  | nil => rfl
  | cons c content ih =>
    rw [List.flatMap_cons, List.append_assoc, readString?_escapeChar, ih, Option.map_some, consChar_some]
    rfl

private theorem quote_append (s : String) (rest : List Char) :
    quote s ++ rest = '"' :: (s.toList.flatMap escapeChar ++ '"' :: rest) := by
  rw [quote, List.cons_append, List.cons_append, List.append_assoc]
  rfl

/-- What can go on a number. -/
def goesOn (c : Char) : Bool := c.isDigit || c == '.' || c == 'e' || c == 'E'

private theorem readExponent?_none {rest : List Char} (h : NotNext goesOn rest) :
    readExponent? rest = some (0, rest) := by
  cases rest with
  | nil => rfl
  | cons c rest =>
    have hc := h c rfl
    simp only [goesOn, Bool.or_eq_false_iff] at hc
    have hexponent : ¬ (c == 'e' || c == 'E') = true := by simp [hc.1.2, hc.2]
    unfold readExponent?
    exact if_neg hexponent

private theorem readFraction?_none {rest : List Char} (h : NotNext goesOn rest) :
    readFraction? rest = some ([], rest) := by
  cases rest with
  | nil => rfl
  | cons c rest =>
    have hc := h c rfl
    simp only [goesOn, Bool.or_eq_false_iff] at hc
    have hpoint : c ≠ '.' := by simpa using hc.1.1.2
    rw [readFraction?]
    simp [hpoint]

private theorem notDigit_of_notNext {rest : List Char} (h : NotNext goesOn rest) :
    NotNext Char.isDigit rest := by
  intro c hc
  have hgoes := h c hc
  simp only [goesOn, Bool.or_eq_false_iff] at hgoes
  exact hgoes.1.1.1

private theorem readUnsigned?_decimalDigits (negative : Bool) (n : Nat) {rest : List Char}
    (h : NotNext goesOn rest) :
    readUnsigned? float negative (FloatText.decimalDigits n ++ rest) =
      some (integerData float negative (FloatText.decimalDigits n), rest) := by
  unfold readUnsigned?
  rcases Nat.eq_zero_or_pos n with rfl | hpos
  · rw [FloatText.decimalDigits_zero]
    simp [readFraction?_none h, readExponent?_none h]
  · obtain ⟨d, digits, hcons, hd⟩ := FloatText.decimalDigits_eq_cons hpos
    have hspan : (FloatText.decimalDigits n ++ rest).span Char.isDigit =
        (FloatText.decimalDigits n, rest) :=
      span_append (fun c => FloatText.isDigit_of_mem_decimalDigits) (notDigit_of_notNext h)
    rw [hcons, List.cons_append] at hspan ⊢
    split
    · rename_i heq
      exact absurd (List.cons.inj heq).1 hd
    · rw [hspan]
      simp [readFraction?_none h, readExponent?_none h]

theorem readNumber?_integerText {n : Int} (hlow : -9223372036854775808 ≤ n)
    (hhigh : n < 18446744073709551616) {rest : List Char} (h : NotNext goesOn rest) :
    readNumber? float (FloatText.integerText n ++ rest) = some (.int n, rest) := by
  by_cases hneg : n < 0
  · have htext : FloatText.integerText n = '-' :: FloatText.decimalDigits n.natAbs := by
      rw [FloatText.integerText, decide_eq_true hneg]
      rfl
    have hdata : integerData float true (FloatText.decimalDigits n.natAbs) = .int n := by
      have hmagnitude : -(n.natAbs : Int) = n := by omega
      rw [integerData, FloatText.digitsValue_decimalDigits, if_pos rfl, if_pos, hmagnitude]
      rw [hmagnitude]
      simp only [fitsInt64, Bool.and_eq_true, decide_eq_true_eq]
      omega
    rw [htext, List.cons_append]
    exact (readUnsigned?_decimalDigits true n.natAbs h).trans (by rw [hdata])
  · have htext : FloatText.integerText n = FloatText.decimalDigits n.natAbs := by
      rw [FloatText.integerText, decide_eq_false hneg]
      rfl
    have hdata : integerData float false (FloatText.decimalDigits n.natAbs) = .int n := by
      have hsize : n.natAbs < UInt64.size := by
        change n.natAbs < 18446744073709551616
        omega
      have hmagnitude : (n.natAbs : Int) = n := by omega
      rw [integerData, FloatText.digitsValue_decimalDigits, if_neg Bool.false_ne_true, if_pos hsize,
        hmagnitude]
    obtain ⟨d, digits, hcons⟩ := List.exists_cons_of_ne_nil (FloatText.decimalDigits_ne_nil n.natAbs)
    have hd : d ≠ '-' := by
      rintro rfl
      have hdigit := FloatText.isDigit_of_mem_decimalDigits (hcons ▸ List.mem_cons_self)
      cases hdigit
    have hread : readUnsigned? float false (FloatText.decimalDigits n.natAbs ++ rest) =
        some (.int n, rest) := (readUnsigned?_decimalDigits false n.natAbs h).trans (by rw [hdata])
    rw [htext]
    rw [hcons, List.cons_append] at hread ⊢
    unfold readNumber?
    split
    · rename_i heq
      exact absurd (List.cons.inj heq).1 hd
    · exact hread

private theorem integerText_ne_nil (n : Int) : FloatText.integerText n ≠ [] := by
  simp [FloatText.integerText, FloatText.decimalDigits_ne_nil]

private theorem head?_integerText_append (n : Int) (rest : List Char) :
    ∃ c, (FloatText.integerText n ++ rest).head? = some c ∧ (c = '-' ∨ c.isDigit = true) := by
  unfold FloatText.integerText FloatText.sign
  split
  · exact ⟨'-', rfl, .inl rfl⟩
  · obtain ⟨d, digits, hdigits⟩ := List.exists_cons_of_ne_nil (FloatText.decimalDigits_ne_nil n.natAbs)
    refine ⟨d, by rw [hdigits]; rfl, .inr ?_⟩
    exact FloatText.isDigit_of_mem_decimalDigits (hdigits ▸ List.mem_cons_self)

private theorem isBlank_of_number {c : Char} (h : c = '-' ∨ c.isDigit = true) :
    isBlank c = false := by
  rw [Bool.eq_false_iff]
  intro hblank
  simp only [isBlank, Bool.or_eq_true, beq_iff_eq] at hblank
  rcases hblank with ((rfl | rfl) | rfl) | rfl <;> rcases h with h | h <;> cases h

/-- Every value is written with a character that is neither blank nor closes a list. -/
theorem writeBefore_eq_cons (rest : List Char) (data : Data) (h : data.Exact) :
    ∃ c text, writeBefore rest data = c :: text ∧ isBlank c = false ∧ c ≠ ']' := by
  unfold writeBefore
  split
  · exact ⟨_, _, rfl, rfl, by decide⟩
  · rename_i b
    cases b <;> exact ⟨_, _, rfl, rfl, by decide⟩
  · rename_i n
    obtain ⟨c, hhead, hc⟩ := head?_integerText_append n rest
    obtain ⟨text, htext⟩ := List.head?_eq_some_iff.1 hhead
    refine ⟨c, text, htext, isBlank_of_number hc, ?_⟩
    rintro rfl
    rcases hc with hc | hc <;> cases hc
  · exact h.elim
  · exact ⟨_, _, rfl, rfl, by decide⟩
  · exact ⟨_, _, rfl, rfl, by decide⟩
  · exact ⟨_, _, rfl, rfl, by decide⟩
  · exact ⟨_, _, rfl, rfl, by decide⟩
  · exact ⟨_, _, rfl, rfl, by decide⟩
  · exact h.elim

private theorem skipBlanks_cons {c : Char} (h : isBlank c = false) (rest : List Char) :
    skipBlanks (c :: rest) = c :: rest := by
  rw [skipBlanks, List.dropWhile_cons_of_neg]
  simp [h]

private theorem tableData_map (members : List (String × Data)) :
    tableData (members.map fun member => (some member.1.toList, member.2)) = .table members := by
  have hkeys : (members.map fun member => (some member.1.toList, member.2)).mapM
      (fun member : Option (List Char) × Data =>
        member.1.map fun key => (String.ofList key, member.2)) = some members := by
    induction members with
    | nil => rfl
    | cons member members ih => simp [List.mapM_cons, ih]
  rw [tableData, hkeys]

private theorem readValue?_text (fuel : Nat) (s : String) (rest : List Char) :
    readValue? float (fuel + 1) (quote s ++ rest) = some (.text s, rest) := by
  rw [quote_append, readValue?, skipBlanks_cons rfl]
  simp [readString?_flatMap_escapeChar]

theorem readValue?_number {text : List Char} {c : Char} (h : text.head? = some c)
    (hc : c = '-' ∨ c.isDigit = true) (fuel : Nat) :
    readValue? float (fuel + 1) text = readNumber? float text := by
  cases text with
  | nil => cases h
  | cons d rest =>
    obtain rfl : d = c := Option.some.inj h
    unfold readValue?
    rw [skipBlanks_cons (isBlank_of_number hc)]
    split
    case h_7 => rfl
    all_goals
      rename_i heq
      obtain ⟨rfl, -⟩ := List.cons.inj heq
      rcases hc with hc | hc <;> cases hc

mutual

private theorem length_lt_writeBefore (rest : List Char) :
    ∀ data : Data, data.Exact → rest.length < (writeBefore rest data).length
  | .null, _ => by
    have hword : "null".toList.length = 4 := rfl
    simp only [writeBefore, List.length_append]
    omega
  | .bool b, _ => by
    have hword : 0 < (if b then "true" else "false").toList.length := by cases b <;> decide
    simp only [writeBefore, List.length_append]
    omega
  | .int n, _ => by
    have hpos := List.length_pos_iff.2 (integerText_ne_nil n)
    simp only [writeBefore, List.length_append]
    omega
  | .text s, _ => by
    simp only [writeBefore, quote, List.length_append, List.length_cons]
    omega
  | .list [], _ => by
    simp only [writeBefore, List.length_cons]
    omega
  | .list (item :: items), h => by
    have hitem := length_lt_writeBefore (writeItems (']' :: rest) items) item h.1
    have hitems := length_le_writeItems (']' :: rest) items h.2
    simp only [writeBefore, List.length_cons] at hitems ⊢
    omega
  | .table [], _ => by
    simp only [writeBefore, List.length_cons]
    omega
  | .table ((key, value) :: members), h => by
    have hvalue := length_lt_writeBefore (writeMembers ('}' :: rest) members) value h.1
    have hmembers := length_le_writeMembers ('}' :: rest) members h.2
    simp only [writeBefore, List.length_cons, List.length_append, List.cons_append] at hmembers ⊢
    omega

private theorem length_le_writeItems (rest : List Char) :
    ∀ items : List Data, Data.ItemsExact items → rest.length ≤ (writeItems rest items).length
  | [], _ => Nat.le_refl _
  | item :: items, h => by
    have hitem := length_lt_writeBefore (writeItems rest items) item h.1
    have hitems := length_le_writeItems rest items h.2
    simp only [writeItems, List.length_cons]
    omega

private theorem length_le_writeMembers (rest : List Char) :
    ∀ members : List (String × Data), Data.MembersExact members →
      rest.length ≤ (writeMembers rest members).length
  | [], _ => Nat.le_refl _
  | (key, value) :: members, h => by
    have hvalue := length_lt_writeBefore (writeMembers rest members) value h.1
    have hmembers := length_le_writeMembers rest members h.2
    simp only [writeMembers, List.length_cons, List.length_append, List.cons_append]
    omega

end

private theorem notNext_writeItems (items : List Data) (rest : List Char) :
    NotNext goesOn (writeItems (']' :: rest) items) := by
  cases items <;> exact notNext_cons rfl

private theorem notNext_writeMembers (members : List (String × Data)) (rest : List Char) :
    NotNext goesOn (writeMembers ('}' :: rest) members) := by
  cases members <;> exact notNext_cons rfl

-- The three readers call each other with less fuel, so the induction is on the fuel: a call for each
-- character that was written is enough.

mutual

private theorem readValue?_writeBefore : ∀ (fuel : Nat) (data : Data) (rest : List Char), data.Exact →
    NotNext goesOn rest → (writeBefore rest data).length ≤ fuel + rest.length →
      readValue? float fuel (writeBefore rest data) = some (data, rest)
  | 0, data, rest, h, _, hfuel => by
    have hlength := length_lt_writeBefore rest data h
    omega
  | fuel + 1, data, rest, h, hrest, hfuel => by
    match data, h with
    | .null, _ => rfl
    | .bool b, _ => cases b <;> rfl
    | .int n, h =>
      obtain ⟨c, hhead, hc⟩ := head?_integerText_append n rest
      rw [writeBefore, readValue?_number hhead hc, readNumber?_integerText h.1 h.2 hrest]
    | .text s, _ => exact readValue?_text fuel s rest
    | .list [], _ => rfl
    | .list (item :: items), h =>
      have hitems := readItems?_writeItems fuel item items rest h.1 h.2 (by
        simp only [writeBefore, List.length_cons] at hfuel
        omega)
      obtain ⟨c, text, htext, hblank, hclose⟩ :=
        writeBefore_eq_cons (writeItems (']' :: rest) items) item h.1
      rw [htext] at hitems
      rw [writeBefore, htext, readValue?, skipBlanks_cons rfl]
      simp only [skipBlanks_cons hblank]
      split
      · rename_i heq
        exact absurd (List.cons.inj heq).1 hclose
      · simp [hitems]
    | .table [], _ => rfl
    | .table ((key, value) :: members), h =>
      have hmembers := readMembers?_writeMembers fuel key value members rest h.1 h.2 (by
        simp only [writeBefore, List.length_cons, List.cons_append, List.length_append] at hfuel ⊢
        omega)
      rw [quote_append] at hmembers
      rw [writeBefore, List.cons_append, quote_append, readValue?, skipBlanks_cons rfl]
      simp only [skipBlanks_cons (by rfl : isBlank '"' = false)]
      rw [hmembers, Option.bind_eq_bind, Option.bind_some, tableData_map]
      rfl

private theorem readItems?_writeItems :
    ∀ (fuel : Nat) (item : Data) (items : List Data) (rest : List Char),
    item.Exact → Data.ItemsExact items →
    (writeBefore (writeItems (']' :: rest) items) item).length ≤ fuel + rest.length →
      readItems? float fuel (writeBefore (writeItems (']' :: rest) items) item) = some (item :: items, rest)
  | 0, item, items, rest, hitem, hitems, hfuel => by
    have hlength := length_lt_writeBefore (writeItems (']' :: rest) items) item hitem
    have hlater := length_le_writeItems (']' :: rest) items hitems
    rw [List.length_cons] at hlater
    omega
  | fuel + 1, item, items, rest, hitem, hitems, hfuel => by
    have hlength := length_lt_writeBefore (writeItems (']' :: rest) items) item hitem
    have hlater := length_le_writeItems (']' :: rest) items hitems
    rw [List.length_cons] at hlater
    have hread := readValue?_writeBefore fuel item _ hitem (notNext_writeItems items rest) (by omega)
    rw [readItems?, hread, Option.bind_eq_bind, Option.bind_some]
    cases items with
    | nil => rfl
    | cons next items =>
      have hrest := readItems?_writeItems fuel next items rest hitems.1 hitems.2 (by
        rw [writeItems, List.length_cons] at hlength
        rw [writeItems] at hfuel
        omega)
      simp only [writeItems, skipBlanks_cons (by rfl : isBlank ',' = false), hrest,
        Option.bind_eq_bind, Option.bind_some]
      rfl

private theorem readMembers?_writeMembers : ∀ (fuel : Nat) (key : String) (value : Data)
    (members : List (String × Data)) (rest : List Char), value.Exact → Data.MembersExact members →
    (quote key ++ ':' :: writeBefore (writeMembers ('}' :: rest) members) value).length ≤
      fuel + rest.length →
      readMembers? float fuel (quote key ++ ':' :: writeBefore (writeMembers ('}' :: rest) members) value) =
        some (((key, value) :: members).map fun member => (some member.1.toList, member.2), rest)
  | 0, key, value, members, rest, hvalue, hmembers, hfuel => by
    have hlength := length_lt_writeBefore (writeMembers ('}' :: rest) members) value hvalue
    have hlater := length_le_writeMembers ('}' :: rest) members hmembers
    rw [List.length_append, List.length_cons] at hfuel
    rw [List.length_cons] at hlater
    omega
  | fuel + 1, key, value, members, rest, hvalue, hmembers, hfuel => by
    have hlength := length_lt_writeBefore (writeMembers ('}' :: rest) members) value hvalue
    have hlater := length_le_writeMembers ('}' :: rest) members hmembers
    rw [List.length_cons] at hlater
    rw [quote_append, List.length_cons, List.length_append, List.length_cons, List.length_cons] at hfuel
    have hread := readValue?_writeBefore fuel value _ hvalue (notNext_writeMembers members rest) (by omega)
    rw [quote_append, readMembers?, skipBlanks_cons rfl]
    simp only [readString?_flatMap_escapeChar, Option.bind_eq_bind, Option.bind_some,
      skipBlanks_cons (by rfl : isBlank ':' = false), hread]
    cases members with
    | nil => rfl
    | cons member members =>
      have hrest := readMembers?_writeMembers fuel member.1 member.2 members rest hmembers.1 hmembers.2 (by
        simp only [writeMembers, List.cons_append, List.length_cons] at hlength hfuel
        omega)
      simp only [writeMembers, List.cons_append, skipBlanks_cons (by rfl : isBlank ',' = false)]
      rw [hrest]
      rfl

end

/-- A written value is the only one that its text stands for. -/
theorem read?_write {data : Data} (h : data.Exact) : read? (write data) float = some data := by
  have hread : readValue? float (2 * (writeBefore [] data).length + 2) (writeBefore [] data) =
      some (data, []) := readValue?_writeBefore _ data [] h (notNext_nil _) (by omega)
  rw [read?, write, String.toList_ofList, hread]
  rfl

end Json

end SignalDesk
