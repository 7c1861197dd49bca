/-
# Objects of JSON can be read back

A report is only as good as what another program makes of it.  `Object.read?` is such a program: it
reads a line by the grammar of JSON, as far as compact objects with these values go, and knows
nothing of how the line was written.  An escape may be spelled in any way that the grammar allows,
and what the grammar forbids (a control character, a comma too many, anything behind the object) is
refused.

Every object is read back from its line (`read?_chars`), and as no line holds a line end, objects
that are written one on each line are read back in order (`readLines?_ofList`).  Each reader is
shown to undo its writer with any characters behind, which is what lets the next reader go on there
(`Undoes`).
-/
import EnumAssets.Proofs.Text.Lines
import EnumAssets.Text.Json

namespace EnumAssets.Json

/-! ## 1. Strings -/

/-- A reader takes what it reads from the front, and leaves the rest. -/
abbrev Reader (α : Type) := List Char → Option (α × List Char)

/-- The value of a hexadecimal digit. -/
def digit? (c : Char) : Option Nat :=
  if '0' ≤ c ∧ c ≤ '9' then some (c.toNat - '0'.toNat)
  else if 'a' ≤ c ∧ c ≤ 'f' then some (c.toNat - 'a'.toNat + 10)
  else if 'A' ≤ c ∧ c ≤ 'F' then some (c.toNat - 'A'.toNat + 10)
  else none

/-- The character of four hexadecimal digits; none if they are half of a pair. -/
def numbered? (a b c d : Char) : Option Char := do
  let n := (((← digit? a) * 16 + (← digit? b)) * 16 + (← digit? c)) * 16 + (← digit? d)
  if n.isValidChar then some (Char.ofNat n) else none

/-- The character that a letter behind a backslash stands for. -/
def letter? : Char → Option Char
  | '"' => some '"'
  | '\\' => some '\\'
  | '/' => some '/'
  | 'b' => some '\x08'
  | 'f' => some '\x0c'
  | 'n' => some '\n'
  | 'r' => some '\r'
  | 't' => some '\t'
  | _ => none

/-- What is read behind a character, with that character in front. -/
def put (ch : Char) (read : Option (List Char × List Char)) : Option (List Char × List Char) :=
  read.map fun (cs, rest) => (ch :: cs, rest)

/-- Reads the characters of a string and the quote behind them. -/
def readChars : Reader (List Char)
  | '"' :: rest => some ([], rest)
  | '\\' :: 'u' :: a :: b :: c :: d :: rest => do put (← numbered? a b c d) (readChars rest)
  | '\\' :: letter :: rest => do put (← letter? letter) (readChars rest)
  | ch :: rest => if ' ' ≤ ch then put ch (readChars rest) else none
  | [] => none

/-- Reads a string. -/
def readText : Reader String
  | '"' :: rest => do
    let (cs, rest) ← readChars rest
    return (String.ofList cs, rest)
  | _ => none

/-! ## 2. Lists and objects -/

variable {α : Type}

/-- Reads what is behind an item: the end of the list, or a comma and one more item. -/
def readMore (item : Reader α) (close : Char) : Reader (List α)
  | [] => none
  | ch :: rest =>
    if ch = close then some ([], rest)
    else if ch = ',' then
      match item rest with
      | none => none
      | some (x, rest') =>
        -- an item that takes nothing would be read over and over
        if _h : rest'.length ≤ rest.length then do
          let (xs, rest) ← readMore item close rest'
          return (x :: xs, rest)
        else none
    else none
termination_by cs => cs.length
decreasing_by simp; omega

/-- Reads items with commas between them, up to the end of the list. -/
def readList (item : Reader α) (close : Char) : Reader (List α)
  | [] => none
  | ch :: rest =>
    if ch = close then some ([], rest)
    else do
      let (x, rest) ← item (ch :: rest)
      let (xs, rest) ← readMore item close rest
      return (x :: xs, rest)

/-- Reads a value. -/
def readValue : Reader Value
  | 'n' :: 'u' :: 'l' :: 'l' :: rest => some (.null, rest)
  | 't' :: 'r' :: 'u' :: 'e' :: rest => some (.boolean true, rest)
  | 'f' :: 'a' :: 'l' :: 's' :: 'e' :: rest => some (.boolean false, rest)
  | '[' :: rest => do
    let (items, rest) ← readList readText ']' rest
    return (.texts items, rest)
  | cs => do
    let (s, rest) ← readText cs
    return (.text s, rest)

/-- Reads a field. -/
def readField : Reader (String × Value) := fun cs => do
  match ← readText cs with
  | (key, ':' :: rest) =>
    let (v, rest) ← readValue rest
    return ((key, v), rest)
  | _ => none

/-- The object of a line. -/
def Object.read? : List Char → Option Object
  | '\x7b' :: rest =>
    match readList readField '\x7d' rest with
    | some (o, []) => some o
    | _ => none
  | _ => none

/-- The objects of a text with one on each line, if it has no other lines and ends with a line. -/
def readLines? (text : String) : Option (List Object) :=
  if text.toList = (linesOf text).flatMap (· ++ ['\n']) then (linesOf text).mapM Object.read?
  else none

/-! ## 3. Strings are read back -/

/-- **A reader undoes a writer**, whatever stands behind what was written. -/
def Undoes (read : Reader α) (write : α → List Char) : Prop :=
  ∀ x rest, read (write x ++ rest) = some (x, rest)

theorem digit?_digitChar : ∀ n < 16, digit? (Nat.digitChar n) = some n := by
  decide

/-- A control character is got back from its number. -/
theorem numbered?_digits {c : Char} (h : c < ' ') :
    numbered? '0' '0' (Nat.digitChar (c.toNat / 16)) (Nat.digitChar (c.toNat % 16)) = some c := by
  have hlow : c.toNat < 32 := h
  have hzero : digit? '0' = some 0 := by decide
  have hhigh := digit?_digitChar (c.toNat / 16) (by omega)
  have hrest := digit?_digitChar (c.toNat % 16) (by omega)
  have hnumber : ((0 * 16 + 0) * 16 + c.toNat / 16) * 16 + c.toNat % 16 = c.toNat := by omega
  have hvalid : c.toNat.isValidChar := Or.inl (by omega)
  have hsame : Char.ofNat c.toNat = c := Char.ofNat_toNat c
  rw [numbered?, hzero, hhigh, hrest]
  simp only [Option.bind_eq_bind, Option.bind_some, hnumber, if_pos hvalid, hsame]

theorem readChars_escape (c : Char) (rest : List Char) :
    readChars (escape c ++ rest) = put c (readChars rest) := by
  fun_cases escape c
  case case8 hcontrol =>
    simp [readChars, numbered?_digits hcontrol]
  case case9 hquote hback _ _ _ _ _ hplain =>
    have hle : ' ' ≤ c := Char.not_lt.mp hplain
    rw [List.singleton_append, readChars.eq_4 _ _ hquote (fun _ _ _ _ _ h _ => hback h)
      (fun _ _ h _ => hback h), if_pos hle]
  all_goals simp [readChars, letter?]

theorem readChars_flatMap_escape (cs rest : List Char) :
    readChars (cs.flatMap escape ++ '"' :: rest) = some (cs, rest) := by
  induction cs with
  | nil => rfl
  | cons c cs ih =>
    rw [List.flatMap_cons, List.append_assoc, readChars_escape, ih, put, Option.map_some]

/-- What stands between two characters, and what stands behind them. -/
theorem enclosed_append (first last : Char) (cs rest : List Char) :
    first :: cs ++ [last] ++ rest = first :: (cs ++ last :: rest) := by
  simp

theorem undoes_quoted : Undoes readText quoted := by
  intro s rest
  rw [quoted, enclosed_append, readText, readChars_flatMap_escape]
  simp

/-! ## 4. Lists are read back -/

theorem separated_cons (p : List Char) (ps : List (List Char)) :
    separated (p :: ps) = p ++ ps.flatMap (',' :: ·) := by
  induction ps generalizing p with
  | nil => simp [separated]
  | cons q qs ih =>
    have hrest : q ++ qs.flatMap (',' :: ·) = [','].intercalate (q :: qs) := (ih q).symm
    rw [List.flatMap_cons, List.cons_append, hrest, separated, List.intercalate_cons_cons,
      List.append_assoc, List.singleton_append]

/-- What is behind an item is read back. -/
theorem readMore_flatMap {item : Reader α} {write : α → List Char} (h : Undoes item write)
    {close : Char} (hclose : close ≠ ',') (xs : List α) (rest : List Char) :
    readMore item close ((xs.map write).flatMap (',' :: ·) ++ close :: rest) = some (xs, rest) := by
  induction xs with
  | nil => rw [List.map_nil, List.flatMap_nil, List.nil_append, readMore, if_pos rfl]
  | cons x xs ih =>
    rw [List.map_cons, List.flatMap_cons, List.cons_append, List.cons_append, List.append_assoc,
      readMore, if_neg hclose.symm, if_pos rfl, h]
    simp [ih]

/-- **A list is read back** if its items are, and if none of them begins like its end. -/
theorem readList_separated {item : Reader α} {write : α → List Char} (h : Undoes item write)
    {close : Char} (hclose : close ≠ ',') (hhead : ∀ x, ∃ ch cs, write x = ch :: cs ∧ ch ≠ close)
    (xs : List α) (rest : List Char) :
    readList item close (separated (xs.map write) ++ close :: rest) = some (xs, rest) := by
  cases xs with
  | nil => simp [separated, readList]
  | cons x xs =>
    obtain ⟨ch, cs, hx, hne⟩ := hhead x
    have hitem := h x ((xs.map write).flatMap (',' :: ·) ++ close :: rest)
    rw [hx, List.cons_append] at hitem
    rw [List.map_cons, separated_cons, List.append_assoc, hx, List.cons_append, readList,
      if_neg hne, hitem]
    simp [readMore_flatMap h hclose]

/-! ## 5. Objects are read back -/

theorem undoes_value : Undoes readValue Value.chars := by
  intro v rest
  cases v with
  | null => rfl
  | boolean b => cases b <;> rfl
  | text s =>
    have h := undoes_quoted s rest
    rw [quoted, enclosed_append] at h
    rw [Value.chars, quoted, enclosed_append, readValue, h]
    · simp
    all_goals simp
  | texts items =>
    rw [Value.chars, enclosed_append, readValue, readList_separated undoes_quoted (by decide)
      fun s => ⟨'"', _, rfl, by decide⟩]
    rfl

theorem undoes_field : Undoes readField field := by
  rintro ⟨key, v⟩ rest
  rw [field, List.append_assoc, readField, undoes_quoted]
  simp [undoes_value v rest]

/-- **An object is read back.** -/
theorem read?_chars (o : Object) : Object.read? o.chars = some o := by
  have hclose : '\x7d' ≠ ',' := by decide
  have h := readList_separated undoes_field hclose (fun f => ⟨'"', _, rfl, by decide⟩) o []
  rw [Object.chars, List.cons_append, Object.read?, h]

/-- The reader knows spellings that the writer does not use. -/
example : Object.read? "\x7b\"a\":[\"\\u0041\\/\"],\"b\":true\x7d".toList =
    some [("a", .texts ["A/"]), ("b", .boolean true)] := by cbv

/-! ## 6. Objects on lines -/

/-- **No control character stands in a part of the text**, so no line end does. -/
def OnOneLine (cs : List Char) : Prop :=
  ∀ ch ∈ cs, ' ' ≤ ch

variable {cs ds : List Char}

theorem OnOneLine.append (hcs : OnOneLine cs) (hds : OnOneLine ds) : OnOneLine (cs ++ ds) :=
  List.forall_mem_append.mpr ⟨hcs, hds⟩

theorem OnOneLine.cons {ch : Char} (hch : ' ' ≤ ch) (hcs : OnOneLine cs) : OnOneLine (ch :: cs) :=
  List.forall_mem_cons.mpr ⟨hch, hcs⟩

theorem le_digitChar : ∀ n < 16, ' ' ≤ Nat.digitChar n := by
  decide

theorem onOneLine_escape (c : Char) : OnOneLine (escape c) := by
  fun_cases escape c
  case case8 hcontrol =>
    have hlow : c.toNat < 32 := hcontrol
    have hhigh := le_digitChar (c.toNat / 16) (by omega)
    have hrest := le_digitChar (c.toNat % 16) (by omega)
    simp [OnOneLine, hhigh, hrest]
  case case9 hplain => simpa [OnOneLine] using hplain
  all_goals simp [OnOneLine]

theorem OnOneLine.enclosed {first last : Char} (hfirst : ' ' ≤ first) (hcs : OnOneLine cs)
    (hlast : ' ' ≤ last) : OnOneLine (first :: cs ++ [last]) :=
  (hcs.cons hfirst).append (.cons hlast nofun)

theorem onOneLine_quoted (s : String) : OnOneLine (quoted s) := by
  refine .enclosed (by decide) (fun ch hch => ?_) (by decide)
  obtain ⟨c, -, hc⟩ := List.mem_flatMap.mp hch
  exact onOneLine_escape c ch hc

theorem OnOneLine.separated {parts : List (List Char)} (h : ∀ p ∈ parts, OnOneLine p) :
    OnOneLine (separated parts) := by
  cases parts with
  | nil => nofun
  | cons p ps =>
    rw [separated_cons]
    refine .append (h p List.mem_cons_self) fun ch hch => ?_
    obtain ⟨q, hq, hmem⟩ := List.mem_flatMap.mp hch
    exact (h q (List.mem_cons_of_mem _ hq)).cons (by decide) ch hmem

theorem onOneLine_value (v : Value) : OnOneLine v.chars := by
  cases v with
  | null => simp [Value.chars, OnOneLine]
  | boolean b => cases b <;> simp [Value.chars, OnOneLine]
  | text s => exact onOneLine_quoted s
  | texts items =>
    refine .enclosed (by decide) (.separated fun p hp => ?_) (by decide)
    obtain ⟨s, -, rfl⟩ := List.mem_map.mp hp
    exact onOneLine_quoted s

theorem onOneLine_chars (o : Object) : OnOneLine o.chars := by
  refine .enclosed (by decide) (.separated fun p hp => ?_) (by decide)
  obtain ⟨⟨key, v⟩, -, rfl⟩ := List.mem_map.mp hp
  exact (onOneLine_quoted key).append ((onOneLine_value v).cons (by decide))

/-- **Objects that are written one on each line are read back**, all of them and in order. -/
theorem readLines?_ofList (os : List Object) :
    readLines? (String.ofList (os.flatMap fun o => o.chars ++ ['\n'])) = some os := by
  have hlines : linesOf (String.ofList ((os.map Object.chars).flatMap (· ++ ['\n']))) =
      os.map Object.chars := linesOf_ofList fun l hl hmem => by
    obtain ⟨o, -, rfl⟩ := List.mem_map.mp hl
    exact absurd (onOneLine_chars o '\n' hmem) (by decide)
  have hread : (os.map Object.chars).mapM Object.read? = some os := by
    rw [List.mapM_map, show Object.read? ∘ Object.chars = fun o => pure (id o) from
      funext read?_chars, List.mapM_pure, List.map_id]
    rfl
  rw [List.flatMap_map] at hlines
  rw [readLines?, hlines, String.toList_ofList, List.flatMap_map, if_pos rfl, hread]

end EnumAssets.Json
