import SignalDesk.Proofs.Capture

/-!
# The lines of a text

A text is cut after each line feed, and what follows the last one is a line if it is not empty. The
bytes of a text are cut in the same places, since no other character has a line feed among its
bytes. A text without some of its lines is put together from the lines that are left, with their
ends.
-/

namespace SignalDesk

private theorem utf8EncodeChar_of_lt {c : Char} (h : c.toNat < 128) :
    String.utf8EncodeChar c = [UInt8.ofNat c.toNat] :=
  if_pos (Nat.le_of_lt_succ h)

private theorem le_of_mem_utf8EncodeChar {c : Char} (h : 128 ≤ c.toNat) {byte : UInt8}
    (hbyte : byte ∈ String.utf8EncodeChar c) : 128 ≤ byte.toNat := by
  have hwide : ¬ c.val.toNat ≤ 0x7f := Nat.not_le_of_lt h
  unfold String.utf8EncodeChar at hbyte
  simp only [hwide, if_false] at hbyte
  split at hbyte
  · simp only [List.mem_cons, List.not_mem_nil, or_false] at hbyte
    rcases hbyte with rfl | rfl <;> simp only [UInt8.toNat_ofNat'] <;> omega
  · split at hbyte
    · simp only [List.mem_cons, List.not_mem_nil, or_false] at hbyte
      rcases hbyte with rfl | rfl | rfl <;> simp only [UInt8.toNat_ofNat'] <;> omega
    · simp only [List.mem_cons, List.not_mem_nil, or_false] at hbyte
      rcases hbyte with rfl | rfl | rfl | rfl <;> simp only [UInt8.toNat_ofNat'] <;> omega

private theorem eq_of_mem_utf8EncodeChar {c ascii : Char} (hascii : ascii.toNat < 128)
    (h : UInt8.ofNat ascii.toNat ∈ String.utf8EncodeChar c) : c = ascii := by
  have hvalue : (UInt8.ofNat ascii.toNat).toNat = ascii.toNat := Nat.mod_eq_of_lt (by omega)
  rcases Nat.lt_or_ge c.toNat 128 with hlt | hge
  · rw [utf8EncodeChar_of_lt hlt, List.mem_singleton, ← UInt8.toNat_inj, hvalue] at h
    have hc : (UInt8.ofNat c.toNat).toNat = c.toNat := Nat.mod_eq_of_lt (by omega)
    rw [hc] at h
    exact Char.toNat_inj.1 h.symm
  · have hle := le_of_mem_utf8EncodeChar hge h
    omega

def utf8Bytes (text : List Char) : List UInt8 := text.flatMap String.utf8EncodeChar

private theorem utf8Bytes_cons (c : Char) (text : List Char) :
    utf8Bytes (c :: text) = String.utf8EncodeChar c ++ utf8Bytes text :=
  List.flatMap_cons

private theorem utf8Bytes_append (first second : List Char) :
    utf8Bytes (first ++ second) = utf8Bytes first ++ utf8Bytes second :=
  List.flatMap_append

private theorem toUTF8_eq_utf8Bytes (text : String) :
    text.toUTF8.data.toList = utf8Bytes text.toList := by
  rw [String.toUTF8_eq_toByteArray, ← String.utf8Encode_toList]
  exact List.toList_data_toByteArray

private theorem fromUTF8?_utf8Bytes (text : List Char) :
    String.fromUTF8? ⟨(utf8Bytes text).toArray⟩ = some (String.ofList text) := by
  have hbytes : (⟨(utf8Bytes text).toArray⟩ : ByteArray) = (String.ofList text).toByteArray := by
    rw [String.toByteArray_ofList]
    exact ByteArray.ext List.data_toByteArray.symm
  rw [hbytes, String.fromUTF8?, dif_pos (String.ofList text).isValidUTF8]
  rfl

namespace Capture

/-- A line, with whether a line feed ended it. -/
abbrev TextLine : Type := List Char × Bool

def splitText : List Char → List TextLine
  | [] => []
  | c :: rest =>
    if c = '\n' then ([], true) :: splitText rest
    else
      match splitText rest with
      | [] => [([c], false)]
      | (line, ended) :: later => (c :: line, ended) :: later

namespace TextLine

def whole (line : TextLine) : List Char := if line.2 then line.1 ++ ['\n'] else line.1

/-- The line without its end, which is a line feed or a carriage return and a line feed. -/
def content (line : TextLine) : String :=
  .ofList (if line.2 && line.1.getLast? == some '\r' then line.1.dropLast else line.1)

def bytes (line : TextLine) : List UInt8 × Bool := (utf8Bytes line.1, line.2)

end TextLine

def textLines (text : String) : List String := (splitText text.toList).map TextLine.content

private theorem splitLines_of_not_mem {bytes : List UInt8} (h : lineFeed ∉ bytes)
    (current rest : List UInt8) :
    splitLines current (bytes ++ rest) = splitLines (bytes.reverse ++ current) rest := by
  induction bytes generalizing current with
  | nil => rfl
  | cons byte bytes ih =>
    rw [List.mem_cons, not_or] at h
    rw [List.cons_append, splitLines_cons, if_neg (Ne.symm h.1), ih h.2, List.reverse_cons,
      List.append_assoc]
    rfl

/-- The bytes of a text are cut where its characters are. The bytes read before are a part of the
first line. -/
theorem splitLines_utf8Bytes (current : List UInt8) (text : List Char) :
    splitLines current (utf8Bytes text) =
      match (splitText text).map TextLine.bytes with
      | [] => if current.isEmpty then [] else [(current.reverse, false)]
      | (line, ended) :: later => (current.reverse ++ line, ended) :: later := by
  induction text generalizing current with
  | nil => rfl
  | cons c rest ih =>
    rw [utf8Bytes_cons, splitText]
    by_cases hc : c = '\n'
    · have hfeed : String.utf8EncodeChar '\n' = [lineFeed] := rfl
      rw [if_pos hc, hc, hfeed, List.singleton_append, splitLines_cons, if_pos rfl, ih []]
      cases splitText rest <;> simp [TextLine.bytes, utf8Bytes]
    · have hmem : lineFeed ∉ String.utf8EncodeChar c := fun h =>
        hc (eq_of_mem_utf8EncodeChar (by decide : '\n'.toNat < 128) h)
      rw [if_neg hc, splitLines_of_not_mem hmem, ih]
      cases splitText rest <;> simp [TextLine.bytes, utf8Bytes, String.utf8EncodeChar_ne_nil]

theorem splitLines_toUTF8 (text : String) :
    splitLines [] text.toUTF8.data.toList = (splitText text.toList).map TextLine.bytes := by
  rw [toUTF8_eq_utf8Bytes, splitLines_utf8Bytes]
  cases splitText text.toList <;> rfl

private theorem utf8Bytes_dropLast_of_last {line : List Char} (h : line.getLast? = some '\r') :
    (utf8Bytes line).dropLast = utf8Bytes line.dropLast := by
  obtain ⟨start, rfl⟩ := List.getLast?_eq_some_iff.1 h
  rw [utf8Bytes_append, List.dropLast_concat]
  have hreturn : utf8Bytes ['\r'] = [carriageReturn] := rfl
  rw [hreturn, List.dropLast_concat]

private theorem getLast?_utf8Bytes_eq_return {line : List Char} :
    (utf8Bytes line).getLast? = some carriageReturn ↔ line.getLast? = some '\r' := by
  constructor
  · intro h
    cases hlast : line.getLast? with
    | none =>
      rw [List.getLast?_eq_none_iff.1 hlast] at h
      cases h
    | some c =>
      obtain ⟨start, rfl⟩ := List.getLast?_eq_some_iff.1 hlast
      have hmem : carriageReturn ∈ String.utf8EncodeChar c := by
        have hc : utf8Bytes [c] = String.utf8EncodeChar c := List.append_nil _
        rw [utf8Bytes_append, hc, List.getLast?_append,
          List.getLast?_eq_some_getLast String.utf8EncodeChar_ne_nil, Option.some_or, Option.some.injEq] at h
        exact h ▸ List.getLast_mem String.utf8EncodeChar_ne_nil
      rw [eq_of_mem_utf8EncodeChar (by decide : '\r'.toNat < 128) hmem]
  · intro h
    obtain ⟨start, rfl⟩ := List.getLast?_eq_some_iff.1 h
    rw [utf8Bytes_append]
    exact List.getLast?_concat

theorem lineText?_bytes (line : TextLine) : lineText? line.bytes = some line.content := by
  obtain ⟨line, ended⟩ := line
  rw [lineText?_eq, TextLine.content, lineBytes, TextLine.bytes]
  cases ended with
  | false => exact fromUTF8?_utf8Bytes line
  | true =>
    simp only [if_true, Bool.true_and, beq_iff_eq, chopReturn, getLast?_utf8Bytes_eq_return]
    split
    · rename_i hreturn
      rw [utf8Bytes_dropLast_of_last hreturn, fromUTF8?_utf8Bytes]
    · exact fromUTF8?_utf8Bytes line

/-- Each line is without line feeds, the last one may have no end if it is not empty. -/
structure AreLines (lines : List TextLine) : Prop where
  clean : ∀ line ∈ lines, '\n' ∉ line.1
  nonempty : ∀ line ∈ lines, line.2 = false → line.1 ≠ []
  ended : lines.Pairwise fun line _ => line.2 = true

theorem AreLines.filter {lines : List TextLine} (h : AreLines lines) (keep : TextLine → Bool) :
    AreLines (lines.filter keep) where
  clean := fun line hline => h.clean line ((List.mem_filter.1 hline).1)
  nonempty := fun line hline => h.nonempty line ((List.mem_filter.1 hline).1)
  ended := h.ended.filter keep

private theorem splitText_append {line : List Char} (h : '\n' ∉ line) (rest : List Char) :
    splitText (line ++ '\n' :: rest) = (line, true) :: splitText rest := by
  induction line with
  | nil => rw [List.nil_append, splitText, if_pos rfl]
  | cons c line ih =>
    rw [List.mem_cons, not_or] at h
    rw [List.cons_append, splitText, if_neg (Ne.symm h.1), ih h.2]

private theorem splitText_of_not_mem {line : List Char} (h : '\n' ∉ line) (hne : line ≠ []) :
    splitText line = [(line, false)] := by
  induction line with
  | nil => exact absurd rfl hne
  | cons c line ih =>
    rw [List.mem_cons, not_or] at h
    rw [splitText, if_neg (Ne.symm h.1)]
    cases line with
    | nil => rfl
    | cons d line => rw [ih h.2 (List.cons_ne_nil d line)]

private theorem areLines_splitText (text : List Char) : AreLines (splitText text) := by
  induction text with
  | nil => exact ⟨List.forall_mem_nil _, List.forall_mem_nil _, List.Pairwise.nil⟩
  | cons c rest ih =>
    obtain ⟨hclean, hnonempty, hended⟩ := ih
    rw [splitText]
    by_cases hc : c = '\n'
    · rw [if_pos hc]
      exact ⟨List.forall_mem_cons.2 ⟨List.not_mem_nil, hclean⟩,
        List.forall_mem_cons.2 ⟨fun h => Bool.noConfusion h, hnonempty⟩,
        List.pairwise_cons.2 ⟨fun _ _ => rfl, hended⟩⟩
    · rw [if_neg hc]
      have hne : '\n' ≠ c := Ne.symm hc
      cases hlines : splitText rest with
      | nil =>
        exact ⟨by simp [hne], by simp, List.pairwise_singleton _ _⟩
      | cons first later =>
        rw [hlines] at hclean hnonempty hended
        obtain ⟨hfirst, hlater⟩ := List.forall_mem_cons.1 hclean
        refine ⟨List.forall_mem_cons.2 ⟨?_, hlater⟩, List.forall_mem_cons.2 ⟨?_, ?_⟩, ?_⟩
        · simp [hne, hfirst]
        · exact fun _ => List.cons_ne_nil _ _
        · exact (List.forall_mem_cons.1 hnonempty).2
        · exact List.pairwise_cons.2 (List.pairwise_cons.1 hended)

/-- Lines that stand one after the other are cut apart again. -/
theorem splitText_flatMap_whole {lines : List TextLine} (h : AreLines lines) :
    splitText (lines.flatMap TextLine.whole) = lines := by
  induction lines with
  | nil => rfl
  | cons first later ih =>
    obtain ⟨hclean, hnonempty, hended⟩ := h
    obtain ⟨hfirst, hlater⟩ := List.pairwise_cons.1 hended
    have hrest := ih ⟨(List.forall_mem_cons.1 hclean).2, (List.forall_mem_cons.1 hnonempty).2, hlater⟩
    have hfeed := hclean first List.mem_cons_self
    have hsome := hnonempty first List.mem_cons_self
    obtain ⟨line, ended⟩ := first
    rw [List.flatMap_cons]
    cases ended with
    | true =>
      have hwhole : TextLine.whole (line, true) = line ++ ['\n'] := rfl
      rw [hwhole, List.append_assoc, List.singleton_append, splitText_append hfeed, hrest]
    | false =>
      cases later with
      | nil => exact (List.append_nil _).symm ▸ splitText_of_not_mem hfeed (hsome rfl)
      | cons next later => cases hfirst next List.mem_cons_self

def keepLines (keep : String → Bool) (text : String) : String :=
  .ofList (((splitText text.toList).filter fun line => keep line.content).flatMap TextLine.whole)

theorem textLines_keepLines (keep : String → Bool) (text : String) :
    textLines (keepLines keep text) = (textLines text).filter keep := by
  unfold textLines keepLines
  rw [String.toList_ofList, splitText_flatMap_whole ((areLines_splitText _).filter _), List.filter_map]
  rfl

end Capture

end SignalDesk
