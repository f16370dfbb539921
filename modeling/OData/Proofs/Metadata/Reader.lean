/-
Reading documents back.

A reader of what documents are written in: start tags, end tags and tags of elements without
content, attributes in double quotes, and the five entities that XML knows without being told.  It
goes through a text character by character and collects the tags, and then through the tags with a
stack of the elements that are still open.  It is strict: between tags there are blanks only, a name
is made of name characters, a value has no bare `<` and no other entity than the five, and every end
tag must have the name of the element that it closes.

Main definitions:

* `Xml.Tag`, `Xml.Scan` — tags, and how far a text has been read;
* `Xml.Nest` — the elements that are open behind some tags;
* `Xml.read` — **the reader**;
* `Xml.IsNamed` — elements with names that can be read.

Main results:

* `Xml.reads_escape` — any text can be an attribute;
* `Xml.nest_tags` — the tags of an element are put together to the element;
* `Xml.read_document` — **a written document is read back**.
-/

import OData.Metadata.Xml

set_option relaxedAutoImplicit false
set_option autoImplicit false

namespace OData.Xml

/-! ### Tags -/

/-- A tag. -/
inductive Tag where
  | opening (name : String) (attributes : List (String × String))
  | closing (name : String)
  | empty (name : String) (attributes : List (String × String))

mutual

/-- The tags of an element. -/
def tags : Xml → List Tag
  | leaf name attributes => [.empty name attributes]
  | node name attributes children =>
    .opening name attributes :: (tagsAll children ++ [.closing name])

/-- The tags of several elements. -/
def tagsAll : List Xml → List Tag
  | [] => []
  | element :: rest => tags element ++ tagsAll rest

end

/-! ### From characters to tags -/

/-- The characters of names. -/
def isNameChar (c : Char) : Bool :=
  c.isAlphanum || c == ':' || c == '_' || c == '-' || c == '.'

/-- The character that an entity stands for. -/
def entityChar? (entity : List Char) : Option Char :=
  match String.ofList entity with
  | "amp" => some '&'
  | "lt" => some '<'
  | "gt" => some '>'
  | "quot" => some '"'
  | "apos" => some '\''
  | _ => none

/-- Where a reader stands in a text. -/
inductive Position where
  /-- Between two tags. -/
  | between
  /-- Behind the bracket that opens a tag. -/
  | opened
  /-- In the declaration in front of the document. -/
  | declaration
  /-- In the name of an end tag. -/
  | closing (name : List Char)
  /-- In the name of a tag, or behind an attribute of it. -/
  | tag (name : List Char) (attributes : List (String × String))
  /-- Behind a blank in a tag. -/
  | inside (name : List Char) (attributes : List (String × String))
  /-- In the name of an attribute. -/
  | key (name : List Char) (attributes : List (String × String)) (key : List Char)
  /-- Behind the equals sign of an attribute. -/
  | equals (name : List Char) (attributes : List (String × String)) (key : List Char)
  /-- In the value of an attribute. -/
  | value (name : List Char) (attributes : List (String × String)) (key value : List Char)
  /-- In an entity in the value of an attribute. -/
  | entity (name : List Char) (attributes : List (String × String)) (key value entity : List Char)
  /-- Behind the slash that ends a tag without content. -/
  | slash (name : List Char) (attributes : List (String × String))
deriving DecidableEq

/-- The tags read so far, and where the reader stands. -/
structure Scan where
  tags : List Tag
  position : Position

namespace Scan

/-- Goes to another position. -/
def goto (scan : Scan) (position : Position) : Option Scan := some { scan with position }

/-- Reads a tag to its end. -/
def found (scan : Scan) (tag : Tag) : Option Scan := some ⟨scan.tags ++ [tag], .between⟩

/-- Reads one character. -/
def step (scan : Scan) (c : Char) : Option Scan :=
  match scan.position with
  | .between =>
    if c = '<' then scan.goto .opened else if c.isWhitespace then scan.goto .between else none
  | .opened =>
    if c = '/' then scan.goto (.closing [])
    else if c = '?' then scan.goto .declaration
    else if isNameChar c then scan.goto (.tag [c] [])
    else none
  | .declaration => if c = '>' then scan.goto .between else scan.goto .declaration
  | .closing name =>
    if isNameChar c then scan.goto (.closing (name ++ [c]))
    else if c = '>' then scan.found (.closing (String.ofList name))
    else none
  | .tag name attributes =>
    if isNameChar c && attributes.isEmpty then scan.goto (.tag (name ++ [c]) [])
    else if c.isWhitespace then scan.goto (.inside name attributes)
    else if c = '/' then scan.goto (.slash name attributes)
    else if c = '>' then scan.found (.opening (String.ofList name) attributes)
    else none
  | .inside name attributes =>
    if isNameChar c then scan.goto (.key name attributes [c])
    else if c.isWhitespace then scan.goto (.inside name attributes)
    else if c = '/' then scan.goto (.slash name attributes)
    else if c = '>' then scan.found (.opening (String.ofList name) attributes)
    else none
  | .key name attributes key =>
    if isNameChar c then scan.goto (.key name attributes (key ++ [c]))
    else if c = '=' then scan.goto (.equals name attributes key)
    else none
  | .equals name attributes key =>
    if c = '"' then scan.goto (.value name attributes key []) else none
  | .value name attributes key value =>
    if c = '"' then
      scan.goto (.tag name (attributes ++ [(String.ofList key, String.ofList value)]))
    else if c = '&' then scan.goto (.entity name attributes key value [])
    else if c = '<' then none
    else scan.goto (.value name attributes key (value ++ [c]))
  | .entity name attributes key value entity =>
    if c = ';' then
      (entityChar? entity).bind fun d => scan.goto (.value name attributes key (value ++ [d]))
    else scan.goto (.entity name attributes key value (entity ++ [c]))
  | .slash name attributes =>
    if c = '>' then scan.found (.empty (String.ofList name) attributes) else none

end Scan

/-! ### From tags to elements -/

/-- An element that is still open, and the elements that came before it. -/
structure Frame where
  name : String
  attributes : List (String × String)
  earlier : List Xml

/-- The elements inside the innermost open one, and the open ones around them. -/
structure Nest where
  children : List Xml
  frames : List Frame

/-- Takes one tag. -/
def Nest.step (nest : Nest) : Tag → Option Nest
  | .opening name attributes => some ⟨[], ⟨name, attributes, nest.children⟩ :: nest.frames⟩
  | .empty name attributes => some { nest with children := nest.children ++ [leaf name attributes] }
  | .closing name =>
    match nest.frames with
    | [] => none
    | frame :: frames =>
      if frame.name = name then
        some ⟨frame.earlier ++ [node frame.name frame.attributes nest.children], frames⟩
      else none

/-- Reads a document: all tags end, and they make up one element. -/
def read (text : String) : Option Xml :=
  match text.toList.foldlM Scan.step ⟨[], .between⟩ with
  | some ⟨tags, .between⟩ =>
    match tags.foldlM Nest.step ⟨[], []⟩ with
    | some ⟨[element], []⟩ => some element
    | _ => none
  | _ => none

/-! ### Names that can be read -/

/-- A name of name characters. -/
def IsName (name : String) : Prop := name.toList ≠ [] ∧ ∀ c ∈ name.toList, isNameChar c = true

instance (name : String) : Decidable (IsName name) :=
  decidable_of_iff (name.toList ≠ [] ∧ name.toList.all isNameChar = true) <| by
    rw [List.all_eq_true, IsName]

/-- Elements whose names, and those of their attributes, can be read. -/
inductive IsNamed : Xml → Prop
  | leaf {name : String} {attributes : List (String × String)} :
      IsName name → (∀ a ∈ attributes, IsName a.1) → IsNamed (leaf name attributes)
  | node {name : String} {attributes : List (String × String)} {children : List Xml} :
      IsName name → (∀ a ∈ attributes, IsName a.1) → (∀ element ∈ children, IsNamed element) →
        IsNamed (node name attributes children)

/-! ### Reading characters -/

/-- Between two positions a text is read, and some tags are found in it. -/
def Reads (p : Position) (text : List Char) (found : List Tag) (q : Position) : Prop :=
  ∀ tags, text.foldlM Scan.step ⟨tags, p⟩ = some ⟨tags ++ found, q⟩

namespace Reads

variable {p q r : Position} {a b : List Char} {found more : List Tag}

theorem nil (p : Position) : Reads p [] [] p := fun tags => by simp

theorem append (ha : Reads p a found q) (hb : Reads q b more r) :
    Reads p (a ++ b) (found ++ more) r := by
  intro tags
  rw [List.foldlM_append, ha, ← List.append_assoc]
  exact hb _

theorem of_step {c : Char} (h : ∀ tags, Scan.step ⟨tags, p⟩ c = some ⟨tags ++ found, q⟩) :
    Reads p [c] found q := by
  intro tags
  rw [List.foldlM_cons, h]
  rfl

/-- A character that only changes the position. -/
theorem cons {c : Char} (h : ∀ tags, Scan.step ⟨tags, p⟩ c = some ⟨tags, q⟩)
    (hb : Reads q b found r) : Reads p (c :: b) found r := by
  intro tags
  rw [List.foldlM_cons, h]
  exact hb tags

end Reads

theorem reads_blanks {text : List Char} (h : ∀ c ∈ text, c.isWhitespace = true) :
    Reads .between text [] .between := by
  induction text with
  | nil => exact .nil _
  | cons c text ih =>
      have hc := h c List.mem_cons_self
      have hne : c ≠ '<' := by
        rintro rfl
        exact absurd hc (by decide)
      refine .cons (fun tags => ?_) (ih fun d hd => h d (List.mem_cons_of_mem _ hd))
      simp [Scan.step, Scan.goto, hne, hc]

/-- A run of name characters goes on with a name, wherever names are read. -/
theorem reads_nameChars (position : List Char → Position)
    (hstep : ∀ tags name c, isNameChar c = true →
      Scan.step ⟨tags, position name⟩ c = some ⟨tags, position (name ++ [c])⟩)
    {text : List Char} (h : ∀ c ∈ text, isNameChar c = true) (name : List Char) :
    Reads (position name) text [] (position (name ++ text)) := by
  induction text generalizing name with
  | nil => simpa using Reads.nil (position name)
  | cons c text ih =>
      have hrest := ih (fun d hd => h d (List.mem_cons_of_mem _ hd)) (name ++ [c])
      rw [List.append_assoc] at hrest
      exact .cons (fun tags => hstep tags name c (h c List.mem_cons_self)) hrest

/-- A character is written as an entity that stands for it, or as itself if it means nothing in a
value. -/
theorem escapeChar_eq (c : Char) :
    (∃ entity, ';' ∉ entity ∧ entityChar? entity = some c ∧
        escapeChar c = '&' :: (entity ++ [';'])) ∨
      escapeChar c = [c] ∧ c ≠ '"' ∧ c ≠ '&' ∧ c ≠ '<' := by
  by_cases hamp : c = '&'
  · exact .inl ⟨"amp".toList, by decide, by subst hamp; rfl, by subst hamp; rfl⟩
  by_cases hlt : c = '<'
  · exact .inl ⟨"lt".toList, by decide, by subst hlt; rfl, by subst hlt; rfl⟩
  by_cases hgt : c = '>'
  · exact .inl ⟨"gt".toList, by decide, by subst hgt; rfl, by subst hgt; rfl⟩
  by_cases hquot : c = '"'
  · exact .inl ⟨"quot".toList, by decide, by subst hquot; rfl, by subst hquot; rfl⟩
  by_cases hapos : c = '\''
  · exact .inl ⟨"apos".toList, by decide, by subst hapos; rfl, by subst hapos; rfl⟩
  exact .inr ⟨by simp [escapeChar, hamp, hlt, hgt, hquot, hapos], hquot, hamp, hlt⟩

section

variable (name : List Char) (attributes : List (String × String)) (key value : List Char)

theorem reads_entity {entity : List Char} {c : Char} (hend : ';' ∉ entity)
    (hchar : entityChar? entity = some c) :
    Reads (.value name attributes key value) ('&' :: (entity ++ [';'])) []
      (.value name attributes key (value ++ [c])) := by
  have hname : ∀ before, Reads (.entity name attributes key value before) entity []
      (.entity name attributes key value (before ++ entity)) := by
    clear hchar
    induction entity with
    | nil => intro before; simpa using Reads.nil (.entity name attributes key value before)
    | cons d entity ih =>
        intro before
        rw [List.mem_cons, not_or] at hend
        have hrest := ih hend.2 (before ++ [d])
        rw [List.append_assoc] at hrest
        exact .cons (fun tags => by simp [Scan.step, Scan.goto, Ne.symm hend.1]) hrest
  refine .cons (fun tags => rfl) (.append (hname []) (.of_step fun tags => ?_))
  simp [Scan.step, Scan.goto, hchar]

/-- **Any text can be an attribute**: its written form is read as the text. -/
theorem reads_escape (text : List Char) :
    Reads (.value name attributes key value) (text.flatMap escapeChar) []
      (.value name attributes key (value ++ text)) := by
  induction text generalizing value with
  | nil => simpa using Reads.nil (.value name attributes key value)
  | cons c text ih =>
      have hrest := ih (value ++ [c])
      rw [List.append_assoc] at hrest
      have hchar : Reads (.value name attributes key value) (escapeChar c) []
          (.value name attributes key (value ++ [c])) := by
        rcases escapeChar_eq c with ⟨entity, hend, hentity, hwritten⟩ | ⟨hwritten, hplain⟩
        · rw [hwritten]
          exact reads_entity name attributes key value hend hentity
        · rw [hwritten]
          exact .of_step fun tags => by simp [Scan.step, Scan.goto, hplain]
      exact hchar.append hrest

end

/-! ### Reading tags -/

/-- An attribute as it stands in a tag. -/
def attributeText (a : String × String) : List Char :=
  ' ' :: (a.1.toList ++ '=' :: '"' :: (a.2.toList.flatMap escapeChar ++ ['"']))

theorem toList_tag (name : String) (attributes : List (String × String)) :
    (tag name attributes).toList = name.toList ++ attributes.flatMap attributeText := by
  rw [tag]
  induction attributes generalizing name with
  | nil => simp
  | cons a attributes ih =>
      rw [List.foldl_cons, ih]
      simp [attributeText, escape]

theorem reads_attribute (name : List Char) (attributes : List (String × String))
    {a : String × String} (h : IsName a.1) :
    Reads (.tag name attributes) (attributeText a) [] (.tag name (attributes ++ [a])) := by
  obtain ⟨c, key, hkey⟩ := List.exists_cons_of_ne_nil h.1
  have hchars := h.2
  rw [hkey] at hchars
  have hc : isNameChar c = true := hchars c List.mem_cons_self
  have hend : Reads (.value name attributes (c :: key) a.2.toList) ['"'] []
      (.tag name (attributes ++ [a])) := by
    refine .of_step fun tags => ?_
    rw [← hkey, List.append_nil]
    simp [Scan.step, Scan.goto, String.ofList_toList]
  have hvalue : Reads (.value name attributes (c :: key) [])
      (a.2.toList.flatMap escapeChar ++ ['"']) [] (.tag name (attributes ++ [a])) :=
    (reads_escape name attributes (c :: key) [] a.2.toList).append hend
  have hrest : Reads (.key name attributes [c]) key [] (.key name attributes (c :: key)) := by
    refine reads_nameChars (Position.key name attributes) (fun tags before d hd => ?_)
      (fun d hd => hchars d (List.mem_cons_of_mem _ hd)) [c]
    simp [Scan.step, Scan.goto, hd]
  have hequals : Reads (.key name attributes (c :: key))
      ('=' :: '"' :: (a.2.toList.flatMap escapeChar ++ ['"'])) [] (.tag name (attributes ++ [a])) :=
    .cons (q := .equals name attributes (c :: key)) (fun tags => rfl)
      (.cons (fun tags => rfl) hvalue)
  rw [attributeText, hkey]
  refine .cons (q := .inside name attributes) (fun tags => ?_)
    (.cons (fun tags => ?_) (hrest.append hequals))
  · cases attributes <;> rfl
  · simp [Scan.step, Scan.goto, hc]

theorem reads_attributes (name : List Char) {attributes : List (String × String)}
    (h : ∀ a ∈ attributes, IsName a.1) (before : List (String × String)) :
    Reads (.tag name before) (attributes.flatMap attributeText) []
      (.tag name (before ++ attributes)) := by
  induction attributes generalizing before with
  | nil => simpa using Reads.nil (.tag name before)
  | cons a attributes ih =>
      have hfirst := reads_attribute name before (h a List.mem_cons_self)
      have hrest := ih (fun a' ha' => h a' (List.mem_cons_of_mem _ ha')) (before ++ [a])
      rw [List.append_assoc] at hrest
      exact hfirst.append hrest

/-- A name and its attributes are read behind the bracket that opens a tag. -/
theorem reads_tag {name : String} (hname : IsName name) {attributes : List (String × String)}
    (h : ∀ a ∈ attributes, IsName a.1) :
    Reads .opened (tag name attributes).toList [] (.tag name.toList attributes) := by
  obtain ⟨c, rest, hchars⟩ := List.exists_cons_of_ne_nil hname.1
  have hplain := hname.2
  rw [hchars] at hplain
  have hc : isNameChar c = true := hplain c List.mem_cons_self
  have hslash : c ≠ '/' := by
    rintro rfl
    exact absurd hc (by decide)
  have hmark : c ≠ '?' := by
    rintro rfl
    exact absurd hc (by decide)
  have hrest : Reads (.tag [c] []) rest [] (.tag (c :: rest) []) := by
    refine reads_nameChars (fun name => .tag name []) (fun tags before d hd => ?_)
      (fun d hd => hplain d (List.mem_cons_of_mem _ hd)) [c]
    simp [Scan.step, Scan.goto, hd]
  rw [toList_tag, hchars, List.cons_append]
  refine .cons (fun tags => ?_) (hrest.append (reads_attributes (c :: rest) h []))
  simp [Scan.step, Scan.goto, hslash, hmark, hc]

/-! ### Reading elements -/

theorem reads_margin (level : Nat) : Reads .between (margin level).toList [] .between := by
  rw [margin, String.toList_ofList]
  refine reads_blanks fun c hc => ?_
  rw [List.eq_of_mem_replicate hc]
  rfl

theorem reads_newline : Reads .between ['\n'] [] .between := reads_blanks (by simp)

/-- A tag on a line of its own. -/
theorem reads_line (level : Nat) {text : List Char} {found : List Tag}
    (h : Reads .opened text found .between) :
    Reads .between ((margin level).toList ++ '<' :: (text ++ ['\n'])) found .between := by
  have htag : Reads .between ('<' :: (text ++ ['\n'])) (found ++ []) .between :=
    .cons (fun tags => rfl) (h.append reads_newline)
  simpa using (reads_margin level).append htag

theorem reads_opening {name : String} (hname : IsName name) {attributes : List (String × String)}
    (h : ∀ a ∈ attributes, IsName a.1) :
    Reads .opened ((tag name attributes).toList ++ ['>']) [.opening name attributes] .between := by
  refine (reads_tag hname h).append (.of_step fun tags => ?_)
  simp [Scan.step, Scan.found, isNameChar, Char.isWhitespace, String.ofList_toList]

theorem reads_empty {name : String} (hname : IsName name) {attributes : List (String × String)}
    (h : ∀ a ∈ attributes, IsName a.1) :
    Reads .opened ((tag name attributes).toList ++ ['/', '>']) [.empty name attributes]
      .between := by
  refine (reads_tag hname h).append (.cons (q := .slash name.toList attributes) (fun tags => ?_)
    (.of_step fun tags => ?_))
  · simp [Scan.step, Scan.goto, isNameChar, Char.isWhitespace]
  · simp [Scan.step, Scan.found, String.ofList_toList]

theorem reads_closing {name : String} (hname : IsName name) :
    Reads .opened ('/' :: (name.toList ++ ['>'])) [.closing name] .between := by
  have hrest : Reads (.closing []) name.toList [] (.closing name.toList) :=
    reads_nameChars Position.closing (fun tags before d hd => by simp [Scan.step, Scan.goto, hd])
      hname.2 []
  refine .cons (fun tags => rfl) (hrest.append (.of_step fun tags => ?_))
  have hchar : isNameChar '>' = false := by decide
  simp [Scan.step, Scan.found, hchar, String.ofList_toList]

mutual

/-- The lines of an element are read as its tags. -/
theorem reads_render : ∀ (element : Xml), IsNamed element → ∀ (level : Nat),
    Reads .between (render level element).toList element.tags .between
  | .leaf name attributes, .leaf hname h, level => by
      simpa [render, tags] using reads_line level (reads_empty hname h)
  | .node name attributes children, .node hname h hchildren, level => by
      have hopening := reads_line level (reads_opening hname h)
      have hinner := reads_renderAll children hchildren (level + 1)
      have hclosing := reads_line level (reads_closing hname)
      simpa [render, tags] using hopening.append (hinner.append hclosing)

theorem reads_renderAll : ∀ (elements : List Xml), (∀ element ∈ elements, IsNamed element) →
    ∀ (level : Nat), Reads .between (renderAll level elements).toList (tagsAll elements) .between
  | [], _, level => by simpa [renderAll, tagsAll] using Reads.nil .between
  | element :: rest, h, level => by
      have hfirst := reads_render element (h element List.mem_cons_self) level
      have hrest := reads_renderAll rest (fun e he => h e (List.mem_cons_of_mem _ he)) level
      simpa [renderAll, tagsAll] using hfirst.append hrest

end

/-! ### Putting tags together -/

mutual

/-- **The tags of an element are put together to the element.** -/
theorem nest_tags : ∀ (element : Xml) (children : List Xml) (frames : List Frame),
    element.tags.foldlM Nest.step ⟨children, frames⟩ = some ⟨children ++ [element], frames⟩
  | .leaf name attributes, children, frames => by simp [tags, Nest.step]
  | .node name attributes inner, children, frames => by
      have hinner := nest_tagsAll inner [] (⟨name, attributes, children⟩ :: frames)
      simp [tags, Nest.step, hinner]

theorem nest_tagsAll : ∀ (elements children : List Xml) (frames : List Frame),
    (tagsAll elements).foldlM Nest.step ⟨children, frames⟩ = some ⟨children ++ elements, frames⟩
  | [], children, frames => by simp [tagsAll]
  | element :: rest, children, frames => by
      have hfirst := nest_tags element children frames
      have hrest := nest_tagsAll rest (children ++ [element]) frames
      simp [tagsAll, hfirst, hrest]

end

/-! ### Documents -/

/-- The line in front of the element. -/
def declaration : String := "<?xml version=\"1.0\" encoding=\"utf-8\"?>\n"

theorem document_eq (element : Xml) : document element = declaration ++ render 0 element := rfl

theorem reads_declaration : Reads .between declaration.toList [] .between := by
  intro tags
  rw [List.append_nil]
  rfl

/-- **A written document is read back.** -/
theorem read_document {element : Xml} (h : IsNamed element) :
    read (document element) = some element := by
  have hscan : (document element).toList.foldlM Scan.step ⟨[], .between⟩
      = some ⟨element.tags, .between⟩ := by
    rw [document_eq, String.toList_append]
    have hread := reads_declaration.append (reads_render element h 0)
    exact hread []
  have hnest : element.tags.foldlM Nest.step ⟨[], []⟩ = some ⟨[element], []⟩ :=
    nest_tags element [] []
  simp only [read, hscan, hnest]

end OData.Xml
