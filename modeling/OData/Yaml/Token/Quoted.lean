/-
Quoted scalars of a YAML text.

A quoted scalar ends at its quote.  In single quotes only a quote is written twice; in double quotes
a backslash begins an escape sequence, and before a line break it joins the lines.

* `Yaml.readEscape` — an escape sequence;
* `Yaml.quotedRun` — the characters up to a gap or the closing quote;
* `Yaml.readQuoted` — a quoted scalar.
-/

import OData.Yaml.Token.Gap

set_option relaxedAutoImplicit false
set_option autoImplicit false

namespace OData.Yaml

/-- What a one-letter escape stands for. -/
def escaped? : Char → Option Char
  | '0' => some '\x00'
  | 'a' => some '\x07'
  | 'b' => some '\x08'
  | 't' => some '\t'
  | '\t' => some '\t'
  | 'n' => some '\n'
  | 'v' => some '\x0b'
  | 'f' => some '\x0c'
  | 'r' => some '\r'
  | 'e' => some '\x1b'
  | ' ' => some ' '
  | '"' => some '"'
  | '/' => some '/'
  | '\\' => some '\\'
  | 'N' => some '\u0085'
  | '_' => some '\u00a0'
  | 'L' => some '\u2028'
  | 'P' => some '\u2029'
  | _ => none

/-- The number of hexadecimal digits after a letter. -/
def escapeWidth? : Char → Option Nat
  | 'x' => some 2
  | 'u' => some 4
  | 'U' => some 8
  | _ => none

/-- The character that an escape sequence behind a backslash stands for, and its width. -/
def readEscape (cs : List Char) : Except Problem (Char × Nat) :=
  match cs with
  | [] => .error .badEscape
  | letter :: rest =>
    match escaped? letter with
    | some ch => .ok (ch, 1)
    | none =>
      match escapeWidth? letter with
      | none => .error .badEscape
      | some width =>
        let digits := rest.take width
        if digits.length < width then .error .badEscape
        else
          match (hexValue? digits).bind charOf? with
          | some ch => .ok (ch, width + 1)
          | none => .error .badEscape

/-- The characters in quotes up to a gap or the closing quote.  With a gap comes what is known of
it: nothing, unless it begins with an escaped line break. -/
def quotedRun (single : Bool) (c : Cursor) (acc : List Char) :
    Except Problem (List Char × Option Gap × Cursor) :=
  match _head : c.rest with
  | [] => .ok (acc.reverse, some {}, c)
  | ch :: rest =>
    if isGap ch then .ok (acc.reverse, some {}, c)
    else if single then
      if ch == '\'' then
        if rest.head? == some '\'' then quotedRun single (c.skipMany 2) ('\'' :: acc)
        else .ok (acc.reverse, none, c)
      else quotedRun single c.skip (ch :: acc)
    else if ch == '"' then .ok (acc.reverse, none, c)
    else if ch == '\\' then
      if rest.head?.any isBreak then
        .ok (acc.reverse, some { isBroken := true }, c.skip.skipBreak.2)
      else
        match readEscape rest with
        | .error problem => .error problem
        | .ok (value, width) => quotedRun single (c.skipMany (width + 1)) (value :: acc)
    else quotedRun single c.skip (ch :: acc)
termination_by c.rest.length
decreasing_by
  · exact Cursor.length_rest_skipMany_lt Nat.zero_lt_two _head
  · exact Cursor.length_rest_skip_lt _head
  · exact Cursor.length_rest_skipMany_lt (Nat.succ_pos _) _head
  · exact Cursor.length_rest_skip_lt _head

/-- A run in quotes does not lengthen the text, and where a gap ends it there is one, unless it is
behind an escaped line break. -/
theorem length_quotedRun_le {single : Bool} {c stop : Cursor} {acc run : List Char}
    {gap : Option Gap} (h : quotedRun single c acc = .ok (run, gap, stop)) :
    stop.rest.length ≤ c.rest.length ∧
      (gap.isSome → startsWithGap stop.rest ∨ stop.rest.length < c.rest.length) := by
  fun_induction quotedRun single c acc with
  | case1 => grind [startsWithGap]
  | case2 => grind [startsWithGap]
  | case3 c acc ch rest head _ _ _ ih =>
    have := Cursor.length_rest_skipMany_lt Nat.zero_lt_two head
    grind
  | case4 => grind
  | case5 c acc ch rest head _ _ ih =>
    have := Cursor.length_rest_skip_lt head
    grind
  | case6 => grind
  | case7 c acc ch rest head =>
    have := Cursor.length_rest_skip_lt head
    have := Cursor.length_rest_skipBreak_le c.skip
    grind
  | case8 => simp at h
  | case9 c acc ch rest head _ _ _ _ _ value width _ ih =>
    have := Cursor.length_rest_skipMany_lt (Nat.succ_pos width) head
    grind
  | case10 c acc ch rest head _ _ _ _ ih =>
    have := Cursor.length_rest_skip_lt head
    grind

/-- The gap behind a run in quotes ends further on than the run began. -/
theorem length_readGap_quotedRun_lt {single : Bool} {c stop after : Cursor} {ch : Char}
    {acc run rest : List Char} {tabFrom : Option Int} {gap gap' : Gap} (head : c.rest = ch :: rest)
    (hrun : quotedRun single c acc = .ok (run, some gap, stop))
    (hgap : readGap tabFrom gap stop = .ok (gap', after)) :
    after.rest.length < c.rest.length := by
  obtain ⟨hle, hstop⟩ := length_quotedRun_le hrun
  have hafter := length_readGap_le hgap
  rcases hstop rfl with hstart | hlt
  · cases hrest : stop.rest with
    | nil =>
      rw [hrest, List.length_nil] at hafter
      rw [head, List.length_cons]
      omega
    | cons ch' rest' =>
      have := length_readGap_lt hrest (by simpa [hrest, startsWithGap] using hstart) hgap
      omega
  · omega

/-- Reads a quoted scalar behind its opening quote. -/
def readQuoted (single : Bool) (text : List Char) (c : Cursor) : Except Problem Reading :=
  match _head : c.rest with
  | [] => .error .unclosedQuote
  | _ :: _ =>
    if c.atDocumentMark then .error .unclosedQuote
    else do
      let ⟨(run, gap?, stop), _run⟩ ← attach (quotedRun single c [])
      match _end : gap? with
      | none => .ok ⟨text ++ run, false, stop.skip⟩
      | some gap => do
        let ⟨(gap, after), _gap⟩ ← attach (readGap none gap stop)
        readQuoted single (text ++ run ++ gap.text) after
termination_by c.rest.length
decreasing_by exact length_readGap_quotedRun_lt _head (_end ▸ _run) _gap

theorem length_readQuoted_le {single : Bool} {text : List Char} {c : Cursor} {reading : Reading}
    (h : readQuoted single text c = .ok reading) :
    reading.after.rest.length ≤ c.rest.length := by
  rw [readQuoted] at h
  split at h
  · simp at h
  · rename_i head
    split at h
    · simp at h
    · obtain ⟨⟨⟨run, gap?, stop⟩, hrun⟩, -, h⟩ := bind_eq_ok.1 h
      cases gap? with
      | none =>
        have := (length_quotedRun_le hrun).1
        obtain rfl := Except.ok.inj h
        simp
        omega
      | some gap =>
        obtain ⟨⟨⟨gap', after⟩, hgap⟩, -, h⟩ := bind_eq_ok.1 h
        have := length_readGap_quotedRun_lt head hrun hgap
        have := length_readQuoted_le h
        omega
termination_by c.rest.length

end OData.Yaml
