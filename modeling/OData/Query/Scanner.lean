/-
Walking over the bytes of a text.

A query is cut by a cursor that reads one byte after the other.  It counts the parentheses that are
open since it set out, passes over everything inside them, and stops in front of the next separator
outside; then it steps over that separator and sets out again.  It knows nothing of characters, and
yet what it takes is to be a text: between two places that are not boundaries of characters there is
none.

* `Query.utf8Bytes`, `Query.slice?` — the bytes of a text, and the text between two of them;
* `Query.Scanner` — a text and a place among its bytes;
* `Query.Scanner.takeUntil` — the text up to the next separator;
* `Query.Scanner.bump` — one byte further;
* `Query.Scanner.run` — both in turn, to the end of the text;
* `Query.cuts` — where separators were stepped over.
-/

set_option relaxedAutoImplicit false
set_option autoImplicit false

namespace OData.Query

/-- The bytes of a text. -/
def utf8Bytes (text : String) : List UInt8 := text.toByteArray.data.toList

/-- The text between two places among its bytes, if both are boundaries of characters. -/
def slice? (text : String) (start stop : Nat) : Option String :=
  if h : start ≤ stop ∧ String.Pos.Raw.IsValid text ⟨start⟩ ∧ String.Pos.Raw.IsValid text ⟨stop⟩ then
    have hle : text.pos ⟨start⟩ h.2.1 ≤ text.pos ⟨stop⟩ h.2.2 := by
      simpa [String.Pos.le_iff, String.Pos.Raw.le_iff] using h.1
    some (text.slice (text.pos ⟨start⟩ h.2.1) (text.pos ⟨stop⟩ h.2.2) hle).copy
  else none

/-- A cursor in a text. -/
structure Scanner where
  text : String
  /-- How many bytes are behind the cursor. -/
  position : Nat := 0

/-- What the cursor comes by when it sets out once. -/
structure Turn where
  /-- The text that is taken. -/
  segment : String
  /-- The place where the cursor stops. -/
  stop : Nat
  /-- The byte that is stepped over, unless the text is at its end. -/
  separator : Option UInt8

/-- The bytes that the cursor passes in one turn. -/
def Turn.bytes (turn : Turn) : List UInt8 := utf8Bytes turn.segment ++ turn.separator.toList

/-- The places where a separator was stepped over. -/
def cuts (turns : List Turn) : List Nat :=
  (turns.filter (·.separator.isSome)).map (·.stop)

namespace Scanner

/-- The bytes in front of the cursor. -/
def unread (scanner : Scanner) : List UInt8 := (utf8Bytes scanner.text).drop scanner.position

/-- How many bytes there are up to the next separator outside parentheses, or to the end, when some
parentheses are open.  A closing parenthesis that is not open is passed like any other byte. -/
def reach (stops : List UInt8) : Nat → List UInt8 → Nat
  | _, [] => 0
  | depth, byte :: rest =>
    if byte = '('.toUInt8 then reach stops (depth + 1) rest + 1
    else if byte = ')'.toUInt8 then reach stops (depth - 1) rest + 1
    else if depth = 0 && stops.contains byte then 0
    else reach stops depth rest + 1

/-- Takes the text up to the next separator outside parentheses, or to the end. -/
def takeUntil (stops : List UInt8) (scanner : Scanner) : Option String × Scanner :=
  let stop := scanner.position + reach stops 0 scanner.unread
  (slice? scanner.text scanner.position stop, { scanner with position := stop })

/-- Steps over the next byte, if there is one. -/
def bump (scanner : Scanner) : Option (UInt8 × Scanner) :=
  scanner.unread.head?.map fun byte => (byte, { scanner with position := scanner.position + 1 })

theorem length_unread_takeUntil (stops : List UInt8) (scanner : Scanner) :
    (scanner.takeUntil stops).2.unread.length ≤ scanner.unread.length := by
  simp only [takeUntil, unread, List.length_drop]
  omega

theorem length_unread_of_bump {scanner next : Scanner} {byte : UInt8}
    (h : scanner.bump = some (byte, next)) : next.unread.length < scanner.unread.length := by
  obtain ⟨_, hhead, heq⟩ := Option.map_eq_some_iff.1 h
  obtain ⟨-, rfl⟩ := Prod.mk.inj heq
  have hpos : 0 < scanner.unread.length := by
    cases hunread : scanner.unread with
    | nil => simp [hunread] at hhead
    | cons first rest => exact Nat.succ_pos _
  simp only [unread, List.length_drop] at hpos ⊢
  omega

/-- Takes texts and steps over separators in turn, to the end.  There is no result if a text was to
be taken from inside a character. -/
def run (stops : List UInt8) (scanner : Scanner) : Option (List Turn) :=
  match (scanner.takeUntil stops).1 with
  | none => none
  | some segment =>
    match _h : (scanner.takeUntil stops).2.bump with
    | none => some [⟨segment, (scanner.takeUntil stops).2.position, none⟩]
    | some (byte, next) =>
      (run stops next).map (⟨segment, (scanner.takeUntil stops).2.position, some byte⟩ :: ·)
termination_by scanner.unread.length
decreasing_by
  exact Nat.lt_of_lt_of_le (length_unread_of_bump _h) (length_unread_takeUntil stops scanner)

/-- The turn that comes to the end of the text is the last one. -/
theorem run_of_bump_eq_none {stops : List UInt8} {scanner stopped : Scanner} {segment : String}
    (htake : scanner.takeUntil stops = (some segment, stopped)) (hbump : stopped.bump = none) :
    run stops scanner = some [⟨segment, stopped.position, none⟩] := by
  rw [run]
  split
  · next heq => simp [htake] at heq
  · next taken heq =>
      obtain rfl : segment = taken := by simpa [htake] using heq
      split
      · rw [htake]
      · next heq => simp [htake, hbump] at heq

/-- Otherwise the cursor goes on behind the separator. -/
theorem run_of_bump_eq_some {stops : List UInt8} {scanner stopped next : Scanner} {segment : String}
    {byte : UInt8} (htake : scanner.takeUntil stops = (some segment, stopped))
    (hbump : stopped.bump = some (byte, next)) :
    run stops scanner = (run stops next).map (⟨segment, stopped.position, some byte⟩ :: ·) := by
  rw [run]
  split
  · next heq => simp [htake] at heq
  · next taken heq =>
      obtain rfl : segment = taken := by simpa [htake] using heq
      split
      · next heq => simp [htake, hbump] at heq
      · next heq =>
          rw [htake, hbump] at heq
          obtain ⟨rfl, rfl⟩ := Prod.mk.inj (Option.some.inj heq)
          rw [htake]

end Scanner

end OData.Query
