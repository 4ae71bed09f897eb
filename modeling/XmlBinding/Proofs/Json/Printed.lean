import XmlBinding.Json.Printer
import XmlBinding.Json.Reader

/-!
# Printed JSON is read back

The printer lays a value out over lines; the reader skips what the layout adds and gives the value
back. Numbers are left out, since a numeral may be any text, and so is the value without meaning,
which prints as null.
-/

namespace XmlBinding.Json

/-! ### Quoted texts -/

/-- What the reader makes of a character as it is printed: a control character without a letter of
its own comes back as a unit of sixteen bits. -/
def pieceOf (c : Char) : Piece :=
  if c.toNat < 0x20 ∧ c ∉ ['\x08', '\x0c', '\n', '\r', '\t'] then .unit c.toNat else .char c

private theorem unitOf?_hexDigit (n : Nat) (h : n < 0x20) :
    unitOf? '0' '0' (hexDigit (n / 16)) (hexDigit (n % 16)) = some n := by
  have hall : ∀ n < 0x20, unitOf? '0' '0' (hexDigit (n / 16)) (hexDigit (n % 16)) = some n := by
    decide
  exact hall n h

private theorem readPieces?_escapeChar (c : Char) (rest : List Char) :
    readPieces? (escapeChar c ++ rest) = (readPieces? rest).map (consPiece (pieceOf c)) := by
  unfold escapeChar
  split
  iterate 7 rfl
  next hquote hslash hb hf hn hr ht =>
    by_cases hc : c.toNat < 0x20
    · have hpiece : pieceOf c = .unit c.toNat := by
        have hother : c ∉ ['\x08', '\x0c', '\n', '\r', '\t'] := by
          simp only [List.mem_cons, List.not_mem_nil, or_false, not_or]
          exact ⟨hb, hf, hn, hr, ht⟩
        rw [pieceOf, if_pos ⟨hc, hother⟩]
      simp only [hc, if_true, List.cons_append, List.nil_append, readPieces?,
        unitOf?_hexDigit c.toNat hc, hpiece]
    · have hpiece : pieceOf c = .char c := by rw [pieceOf, if_neg fun h ↦ hc h.1]
      rw [if_neg hc, hpiece, List.singleton_append, readPieces?, if_neg hc]
      · exact fun h ↦ hquote h
      · rintro a b d e t h
        exact fun _ ↦ hslash h
      · rintro d t h
        exact fun _ ↦ hslash h

private theorem joinPieces?_pieceOf (c : Char) (pieces : List Piece) :
    joinPieces? (pieceOf c :: pieces) = (joinPieces? pieces).map (c :: ·) := by
  unfold pieceOf
  split
  · next h =>
    have hlow : c.toNat < 0x20 := h.1
    have hleading : isLeading c.toNat = false := by simp [isLeading]; omega
    have htrailing : isTrailing c.toNat = false := by simp [isTrailing]; omega
    rw [joinPieces?.eq_def]
    simp [hleading, htrailing]
  · rw [joinPieces?.eq_def]

private theorem readPieces?_flatMap_escapeChar (cs rest : List Char) :
    readPieces? (cs.flatMap escapeChar ++ '"' :: rest) = some (cs.map pieceOf, rest) := by
  induction cs with
  | nil => rfl
  | cons c cs ih =>
    rw [List.flatMap_cons, List.append_assoc, readPieces?_escapeChar, ih]
    rfl

private theorem joinPieces?_map_pieceOf (cs : List Char) :
    joinPieces? (cs.map pieceOf) = some cs := by
  induction cs with
  | nil => rfl
  | cons c cs ih => rw [List.map_cons, joinPieces?_pieceOf, ih]; rfl

/-- A printed text is read back, behind its opening quote. -/
theorem readText?_quote (s : String) (rest : List Char) :
    readText? (s.toList.flatMap escapeChar ++ '"' :: rest) = some (some s, rest) := by
  simp [readText?, readPieces?_flatMap_escapeChar, joinPieces?_map_pieceOf]

/-! ### Layout -/

/-- What starts a line is white space. -/
@[simp] theorem skipSpace_lineStart (depth : Nat) (cs : List Char) :
    skipSpace (lineStart depth ++ cs) = skipSpace cs := by
  have hspace : ∀ c ∈ lineStart depth, Text.isXmlSpace c = true := by
    intro c hc
    rcases List.mem_cons.mp hc with rfl | hc
    · decide
    · rw [List.eq_of_mem_replicate hc]; decide
  exact List.dropWhile_append_of_pos hspace

/-- A value is no numeral, and has a meaning. -/
def isPlain : Json → Bool
  | .number _ | .unread => false
  | _ => true

/-- The first character of a plain value tells what it is, and stands behind no white space. -/
theorem exists_print_eq_cons (depth : Nat) {v : Json} (h : v.all isPlain) :
    ∃ c cs, print depth v = c :: cs ∧ c ∈ ['n', 't', 'f', '"', '[', '\x7b'] := by
  cases v with
  | null => exact ⟨_, _, rfl, by decide⟩
  | bool b => cases b <;> exact ⟨_, _, rfl, by decide⟩
  | number numeral => cases h
  | string s => exact ⟨_, _, rfl, by decide⟩
  | array items => cases items <;> exact ⟨_, _, rfl, by decide⟩
  | object members => cases members <;> exact ⟨_, _, rfl, by decide⟩
  | unread => cases h

private theorem skipSpace_print (depth : Nat) {v : Json} (h : v.all isPlain) (rest : List Char) :
    skipSpace (print depth v ++ rest) = print depth v ++ rest := by
  obtain ⟨c, cs, hprint, hc⟩ := exists_print_eq_cons depth h
  have hspace : Text.isXmlSpace c = false := by
    simp only [List.mem_cons, List.not_mem_nil, or_false] at hc
    rcases hc with rfl | rfl | rfl | rfl | rfl | rfl <;> decide
  rw [hprint, List.cons_append, skipSpace, List.dropWhile_cons_of_neg (by simp [hspace])]

/-- Whatever is skipped before a value makes no difference. -/
theorem readValue?_congr (fuel : Nat) {cs cs' : List Char} (h : skipSpace cs = skipSpace cs') :
    readValue? fuel cs = readValue? fuel cs' := by
  cases fuel with
  | zero => rfl
  | succ fuel => rw [readValue?, readValue?, h]

private theorem readItems?_congr (fuel : Nat) {cs cs' : List Char}
    (h : skipSpace cs = skipSpace cs') : readItems? fuel cs = readItems? fuel cs' := by
  cases fuel with
  | zero => rfl
  | succ fuel => rw [readItems?, readItems?, readValue?_congr fuel h]

private theorem readMembers?_congr (fuel : Nat) {cs cs' : List Char}
    (h : skipSpace cs = skipSpace cs') : readMembers? fuel cs = readMembers? fuel cs' := by
  cases fuel with
  | zero => rfl
  | succ fuel => rw [readMembers?, readMembers?, h]

/-- The parts of an array or object behind the first one, and its closing bracket. -/
def moreParts (closing : Char) (depth : Nat) (parts : List (List Char)) : List Char :=
  parts.flatMap (fun p ↦ ',' :: (lineStart (depth + 1) ++ p)) ++ lineStart depth ++ [closing]

private theorem skipSpace_moreParts_nil (closing : Char) (depth : Nat)
    (h : Text.isXmlSpace closing = false) (rest : List Char) :
    skipSpace (moreParts closing depth [] ++ rest) = closing :: rest := by
  simp only [moreParts, List.flatMap_nil, List.nil_append, List.append_assoc, skipSpace_lineStart,
    List.singleton_append]
  exact List.dropWhile_cons_of_neg (by simp [h])

private theorem skipSpace_moreParts_cons (closing : Char) (depth : Nat) (part : List Char)
    (parts : List (List Char)) (rest : List Char) :
    skipSpace (moreParts closing depth (part :: parts) ++ rest) =
      ',' :: (lineStart (depth + 1) ++ part ++ moreParts closing depth parts ++ rest) := by
  simp [moreParts, skipSpace, Text.isXmlSpace]

private theorem print_array_cons (depth : Nat) (v : Json) (items : List Json) :
    print depth (.array (v :: items)) =
      '[' :: (lineStart (depth + 1) ++ (print (depth + 1) v ++
        moreParts ']' depth (printItems (depth + 1) items))) := by
  simp [print, printItems, block, moreParts]

private theorem print_object_cons (depth : Nat) (name : String) (v : Json)
    (members : List (String × Json)) :
    print depth (.object ((name, v) :: members)) =
      '\x7b' :: (lineStart (depth + 1) ++ (quote name ++ (':' :: ' ' :: print (depth + 1) v ++
        moreParts '\x7d' depth (printMembers (depth + 1) members)))) := by
  simp [print, printMembers, block, moreParts]

private theorem ofMembers_map_some (members : List (String × Json)) :
    ofMembers (members.map fun m ↦ (some m.1, m.2)) = .object members := by
  have hmap (f : Option String × Json → Option (String × Json))
      (hf : ∀ name value, f (some name, value) = some (name, value)) :
      (members.map fun m ↦ (some m.1, m.2)).mapM f = some members := by
    induction members with
    | nil => rfl
    | cons m members ih => simp [List.mapM_cons, ih, hf]
  rw [ofMembers, hmap _ fun _ _ ↦ rfl]

/-- An array that does not end at once is read item by item. -/
private theorem readValue?_openArray (fuel : Nat) {cs items : List Char} {c : Char}
    (hskip : skipSpace cs = c :: items) (hc : c ≠ ']') :
    readValue? (fuel + 1) ('[' :: cs) =
      (readItems? fuel (c :: items)).map fun (items, rest) ↦ (.array items, rest) := by
  have hopen : skipSpace ('[' :: cs) = '[' :: cs := rfl
  rw [readValue?, hopen]
  simp only [hskip]
  split
  · next h => exact absurd (List.cons.inj h).1 hc
  · rfl

/-- An object that does not end at once is read member by member. -/
private theorem readValue?_openObject (fuel : Nat) {cs members : List Char} {c : Char}
    (hskip : skipSpace cs = c :: members) (hc : c ≠ '\x7d') :
    readValue? (fuel + 1) ('\x7b' :: cs) =
      (readMembers? fuel (c :: members)).map fun (members, rest) ↦ (ofMembers members, rest) := by
  have hopen : skipSpace ('\x7b' :: cs) = '\x7b' :: cs := rfl
  rw [readValue?, hopen]
  simp only [hskip]
  split
  · next h => exact absurd (List.cons.inj h).1 hc
  · rfl

/-- A member is a name and a value; then there is another, or the closing brace. -/
private theorem readMembers?_member (fuel : Nat) (name : String) {cs behind : List Char} {v : Json}
    (hvalue : readValue? fuel cs = some (v, behind)) :
    readMembers? (fuel + 1) (quote name ++ (':' :: ' ' :: cs)) =
      match skipSpace behind with
      | ',' :: rest =>
        (readMembers? fuel rest).map fun (more, rest) ↦ ((some name, v) :: more, rest)
      | '\x7d' :: rest => some ([(some name, v)], rest)
      | _ => none := by
  have hopen : skipSpace (quote name ++ (':' :: ' ' :: cs)) =
      '"' :: (name.toList.flatMap escapeChar ++ '"' :: ':' :: ' ' :: cs) := by
    simp [quote, skipSpace, Text.isXmlSpace]
  have hcolon (cs : List Char) : skipSpace (':' :: cs) = ':' :: cs := rfl
  have hspace : skipSpace (' ' :: cs) = skipSpace cs := rfl
  rw [readMembers?, hopen]
  simp only [readText?_quote, Option.bind_eq_bind, Option.bind_some, hcolon,
    readValue?_congr fuel hspace, hvalue]
  -- What is behind the value decides how it goes on, in the same three cases on both sides.
  generalize skipSpace behind = behind
  split
  · exact Option.map_eq_bind.symm
  · rfl
  · simp

mutual

/-- Printed values are read back. Every array or object costs two steps and its two brackets, every
further item or member one step and its comma; hence the bound by the length of the text. -/
private theorem readValue?_print (fuel depth : Nat) (v : Json) (rest : List Char)
    (h : v.all isPlain) (hfuel : 2 * (print depth v).length ≤ fuel) :
    readValue? fuel (print depth v ++ rest) = some (v, rest) := by
  obtain ⟨c, cs, hprint, -⟩ := exists_print_eq_cons depth h
  have hlength : (print depth v).length = cs.length + 1 := congrArg List.length hprint
  obtain ⟨fuel, rfl⟩ : ∃ n, fuel = n + 1 := ⟨fuel - 1, by omega⟩
  match v, h with
  | .null, _ => rfl
  | .bool true, _ => rfl
  | .bool false, _ => rfl
  | .string s, h =>
    rw [readValue?, skipSpace_print depth h]
    simp [print, quote, readText?_quote, ofText]
  | .array [], _ => rfl
  | .array (v :: items), h =>
    obtain ⟨hv, hitems⟩ : v.all isPlain ∧ allItems isPlain items := by
      simpa [all, allItems, isPlain] using h
    rw [print_array_cons] at hfuel ⊢
    obtain ⟨c, cs, hfirst, hc⟩ := exists_print_eq_cons (depth + 1) hv
    have hskip := skipSpace_print (depth + 1) hv
      (moreParts ']' depth (printItems (depth + 1) items) ++ rest)
    have hread := readItems?_print fuel depth v items rest hv hitems (by
      simp only [List.length_cons, List.length_append] at hfuel ⊢
      omega)
    rw [List.cons_append, List.append_assoc, List.append_assoc]
    rw [hfirst, List.cons_append] at hskip hread ⊢
    have hopen : c ≠ ']' := by
      rintro rfl
      exact absurd hc (by decide)
    rw [readValue?_openArray fuel ((skipSpace_lineStart _ _).trans hskip) hopen, hread]
    rfl
  | .object [], _ => rfl
  | .object ((name, v) :: members), h =>
    obtain ⟨hv, hmembers⟩ : v.all isPlain ∧ allMembers isPlain members := by
      simpa [all, allMembers, isPlain] using h
    rw [print_object_cons] at hfuel ⊢
    have hread := readMembers?_print fuel depth name v members rest hv hmembers (by
      simp only [List.length_cons, List.length_append] at hfuel ⊢
      omega)
    have hskip (cs : List Char) : skipSpace (quote name ++ cs) = quote name ++ cs := rfl
    rw [List.cons_append, List.append_assoc, List.append_assoc,
      readValue?_openObject fuel ((skipSpace_lineStart _ _).trans (hskip _)) (by decide)]
    exact (congrArg _ hread).trans (by simp only [Option.map_some, ofMembers_map_some])

private theorem readItems?_print (fuel depth : Nat) (v : Json) (items : List Json)
    (rest : List Char) (hv : v.all isPlain) (h : allItems isPlain items)
    (hfuel : 2 * (print (depth + 1) v ++ moreParts ']' depth
      (printItems (depth + 1) items)).length < fuel) :
    readItems? fuel (print (depth + 1) v ++ (moreParts ']' depth (printItems (depth + 1) items) ++
      rest)) = some (v :: items, rest) := by
  obtain ⟨fuel, rfl⟩ : ∃ n, fuel = n + 1 := ⟨fuel - 1, by omega⟩
  have hvalue := readValue?_print fuel (depth + 1) v
    (moreParts ']' depth (printItems (depth + 1) items) ++ rest) hv (by
      simp only [List.length_append] at hfuel
      omega)
  rw [readItems?, hvalue]
  match items, h with
  | [], _ =>
    simp [printItems, skipSpace_moreParts_nil ']' depth rfl rest]
  | w :: items, h =>
    obtain ⟨hw, hitems⟩ : w.all isPlain ∧ allItems isPlain items := by simpa [allItems] using h
    have hmore := readItems?_print fuel depth w items rest hw hitems (by
      simp only [printItems, moreParts, List.flatMap_cons, List.length_append,
        List.length_cons] at hfuel ⊢
      omega)
    have hskip := skipSpace_moreParts_cons ']' depth (print (depth + 1) w)
      (printItems (depth + 1) items) rest
    simp only [printItems, Option.bind_eq_bind, Option.bind_some, hskip]
    rw [List.append_assoc, List.append_assoc, readItems?_congr fuel (skipSpace_lineStart _ _),
      hmore]
    rfl

private theorem readMembers?_print (fuel depth : Nat) (name : String) (v : Json)
    (members : List (String × Json)) (rest : List Char)
    (hv : v.all isPlain) (h : allMembers isPlain members)
    (hfuel : 2 * (quote name ++ (':' :: ' ' :: print (depth + 1) v ++ moreParts '\x7d' depth
      (printMembers (depth + 1) members))).length < fuel) :
    readMembers? fuel (quote name ++ (':' :: ' ' :: print (depth + 1) v ++
      moreParts '\x7d' depth (printMembers (depth + 1) members) ++ rest)) =
      some (((name, v) :: members).map fun m ↦ (some m.1, m.2), rest) := by
  obtain ⟨fuel, rfl⟩ : ∃ n, fuel = n + 1 := ⟨fuel - 1, by omega⟩
  have hvalue := readValue?_print fuel (depth + 1) v
    (moreParts '\x7d' depth (printMembers (depth + 1) members) ++ rest) hv (by
      simp only [List.length_append, List.length_cons] at hfuel
      omega)
  rw [List.cons_append, List.cons_append, List.cons_append, List.cons_append, List.append_assoc,
    readMembers?_member fuel name hvalue]
  match members, h with
  | [], _ =>
    simp [printMembers, skipSpace_moreParts_nil '\x7d' depth rfl rest]
  | (next, w) :: members, h =>
    obtain ⟨hw, hmembers⟩ : w.all isPlain ∧ allMembers isPlain members := by
      simpa [allMembers] using h
    have hmore := readMembers?_print fuel depth next w members rest hw hmembers (by
      simp only [printMembers, moreParts, List.flatMap_cons, List.length_append,
        List.length_cons] at hfuel ⊢
      omega)
    have hskip := skipSpace_moreParts_cons '\x7d' depth
      (quote next ++ ':' :: ' ' :: print (depth + 1) w) (printMembers (depth + 1) members) rest
    simp only [printMembers, hskip]
    rw [List.append_assoc, List.append_assoc, readMembers?_congr fuel (skipSpace_lineStart _ _)]
    simp only [List.append_assoc, List.cons_append] at hmore ⊢
    rw [hmore]
    rfl

end

/-- Printed values are read back. -/
theorem parse?_pretty {v : Json} (h : v.all isPlain) : parse? v.pretty = some v := by
  have hread := readValue?_print (2 * (print 0 v).length + 2) 0 v [] h (by omega)
  rw [List.append_nil] at hread
  simp only [parse?, pretty, String.toList_ofList, hread]
  rfl

end XmlBinding.Json
