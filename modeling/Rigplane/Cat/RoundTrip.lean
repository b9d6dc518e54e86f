import Rigplane.Cat.Parser
import Rigplane.Lib.Decimal

/-!
# What a CAT template formats is what it parses

The formatter and the parser are followed through one template, part by part.  `TextOf` is the text
of a value in a field; for the values a field describes it has the full width of the field, so that
the pattern, which takes as much as it can, takes exactly that.
-/

namespace Rigplane.Cat

/-! ## Templates -/

/-- A literal character or a placeholder. -/
inductive Part where
  | literal (c : Char)
  | field (entry : Placeholder)

def Part.text : Part → List Char
  | .literal c => [c]
  | .field entry => '{' :: (entry.key ++ ['}'])

/-- No brace is a literal, and the placeholders are those of the table. -/
def Part.Listed : Part → Prop
  | .literal c => c ≠ '{' ∧ c ≠ '}'
  | .field entry => entry ∈ placeholderRegex

def fields : List Part → List Placeholder
  | [] => []
  | .literal _ :: parts => fields parts
  | .field entry :: parts => entry :: fields parts

/-- Each tag is followed by a semicolon. -/
def TagsClosed : List Part → Prop
  | [] => True
  | .literal _ :: parts => TagsClosed parts
  | .field entry :: parts =>
      (entry.name = "tag".toList → ∃ rest, parts = .literal ';' :: rest) ∧ TagsClosed parts

structure Template where
  parts : List Part
  listed : ∀ part ∈ parts, part.Listed
  distinct : ((fields parts).map Placeholder.name).Nodup

def Template.text (template : Template) : List Char := template.parts.flatMap Part.text

/-- The value of each base name. -/
def Template.assignment (template : Template) (v : List Char → Value) : List (List Char × Value) :=
  (fields template.parts).map fun entry => (entry.name, v entry.name)

/-- The values that a placeholder describes. -/
inductive InDomain (entry : Placeholder) : Value → Prop where
  | number {n : Nat} : entry.charClass = .digit → n < 10 ^ entry.high → InDomain entry (.int n)
  | flag {n : Nat} : entry.charClass = .oneOf ['0', '1'] → n < 2 → InDomain entry (.int n)
  | text {s : List Char} : entry.converter = .str → entry.low ≤ s.length →
      s.length ≤ entry.high → (∀ c ∈ s, entry.charClass.contains c = true) →
      InDomain entry (.str s)

/-! ## The table -/

/-- The format specification of a placeholder. -/
def Placeholder.spec (entry : Placeholder) : List Char := (splitColon entry.key).2

/-- What an entry of the table is like. -/
structure Placeholder.WellFormed (entry : Placeholder) : Prop where
  open_not_mem : '{' ∉ entry.key
  close_not_mem : '}' ∉ entry.key
  base : (splitColon entry.key).1 = entry.name
  named : entry.name ≠ []
  allowed : allowedPlaceholders.contains entry.name = true
  looked_up : lookupPlaceholder entry.key = .ok entry
  digits : entry.charClass = .digit →
    zeroPadded entry.spec = some entry.high ∧ entry.converter = .int ∧ 0 < entry.high
  flag : entry.charClass = .oneOf ['0', '1'] →
    entry.spec = [] ∧ entry.converter = .int ∧ entry.low = 1 ∧ entry.high = 1
  text : entry.converter = .str → entry.spec = []
  kinds : entry.converter = .int →
    entry.charClass = .digit ∨ entry.charClass = .oneOf ['0', '1']
  widths : entry.low ≤ entry.high
  /-- The widths are fixed but for the delay and the tag. -/
  fixed : entry.low = entry.high ∨
    (entry.name = "delay".toList ∧ entry.converter = .int ∧ entry.high = 4) ∨
    (entry.name = "tag".toList ∧ entry.charClass = .noneOf [';'])

theorem Placeholder.wellFormed {entry : Placeholder} (h : entry ∈ placeholderRegex) :
    entry.WellFormed := by
  have hall : ∀ e ∈ placeholderRegex, ('{' ∉ e.key ∧ '}' ∉ e.key ∧ (splitColon e.key).1 = e.name ∧
      e.name ≠ [] ∧ allowedPlaceholders.contains e.name = true) ∧
      (e.charClass = .digit →
        zeroPadded e.spec = some e.high ∧ e.converter = .int ∧ 0 < e.high) ∧
      (e.charClass = .oneOf ['0', '1'] →
        e.spec = [] ∧ e.converter = .int ∧ e.low = 1 ∧ e.high = 1) ∧
      (e.converter = .str → e.spec = []) ∧
      (e.converter = .int → e.charClass = .digit ∨ e.charClass = .oneOf ['0', '1']) ∧
      e.low ≤ e.high ∧
      (e.low = e.high ∨ (e.name = "delay".toList ∧ e.converter = .int ∧ e.high = 4) ∨
        (e.name = "tag".toList ∧ e.charClass = .noneOf [';'])) := by decide +kernel
  have hlookup : ∀ e ∈ placeholderRegex,
      placeholderRegex.find? (·.key == e.key) = some e := by decide +kernel
  obtain ⟨⟨hopen, hclose, hbase, hnamed, hallowed⟩, hdigits, hflag, htext, hkinds, hwidths,
    hfixed⟩ :=
    hall entry h
  refine ⟨hopen, hclose, hbase, hnamed, hallowed, ?_, hdigits, hflag, htext, hkinds, hwidths,
    hfixed⟩
  simp only [lookupPlaceholder, hbase, hallowed, hlookup entry h, Bool.not_true, Bool.false_eq_true,
    if_false]

/-! ## Both readers of a template -/

def Part.segment : Part → Segment
  | .literal c => .literal c
  | .field entry => .field entry.name entry.spec

def Part.elem : Part → Elem
  | .literal c => .literal c
  | .field entry => entry.elem

theorem formatterParse_inside (key inside rest : List Char) (hopen : '{' ∉ key)
    (hclose : '}' ∉ key) :
    formatterParse (some inside) (key ++ '}' :: rest) =
      (formatterParse none rest).map
        (.field (splitColon (inside.reverse ++ key)).1
          (splitColon (inside.reverse ++ key)).2 :: ·) := by
  induction key generalizing inside with
  | nil =>
      rw [List.nil_append, List.append_nil]
      cases inside <;> rfl
  | cons c key ih =>
      rw [List.mem_cons, not_or] at hopen hclose
      have hstep : formatterParse (some inside) (c :: (key ++ '}' :: rest)) =
          formatterParse (some (c :: inside)) (key ++ '}' :: rest) := by
        cases inside with
        | nil =>
            rw [formatterParse]
            · exact fun _ he => hopen.1 he.symm
            · exact fun he => hclose.1 he.symm
        | cons d inside =>
            rw [formatterParse]
            · exact nofun
            · exact fun he => hclose.1 he.symm
      rw [List.cons_append, hstep, ih (c :: inside) hopen.2 hclose.2, List.reverse_cons,
        List.append_assoc]
      rfl

theorem formatterParse_text {parts : List Part} (h : ∀ part ∈ parts, part.Listed) :
    formatterParse none (parts.flatMap Part.text) = .ok (parts.map Part.segment) := by
  induction parts with
  | nil => rfl
  | cons part parts ih =>
      have hrest := ih fun p hp => h p (List.mem_cons_of_mem _ hp)
      have hpart := h part List.mem_cons_self
      rw [List.flatMap_cons]
      cases part with
      | literal c =>
          obtain ⟨hopen, hclose⟩ := hpart
          rw [Part.text, List.singleton_append, formatterParse, hrest]
          · rfl
          · exact fun _ he => absurd he hclose
          · exact hclose
          · exact hopen
      | field entry =>
          have hw := Placeholder.wellFormed hpart
          rw [Part.text, List.cons_append, List.append_assoc, formatterParse,
            List.singleton_append, formatterParse_inside entry.key [] _ hw.open_not_mem
              hw.close_not_mem, hrest]
          simp only [List.reverse_nil, List.nil_append, hw.base]
          rfl

theorem buildRegex_inside (key inside rest : List Char) (hclose : '}' ∉ key) :
    buildRegex (some inside) (key ++ '}' :: rest) =
      buildRegex (some (key.reverse ++ inside)) ('}' :: rest) := by
  induction key generalizing inside with
  | nil => rfl
  | cons c key ih =>
      rw [List.mem_cons, not_or] at hclose
      have hstep : buildRegex (some inside) (c :: (key ++ '}' :: rest)) =
          buildRegex (some (c :: inside)) (key ++ '}' :: rest) := by
        rw [buildRegex]
        exact fun he => hclose.1 he.symm
      rw [List.cons_append, hstep, ih (c :: inside) hclose.2, List.reverse_cons, List.append_assoc]
      rfl

theorem buildRegex_text {parts : List Part} (h : ∀ part ∈ parts, part.Listed) :
    buildRegex none (parts.flatMap Part.text) =
      .ok (parts.map Part.elem, (fields parts).map fun entry => (entry.name, entry.converter)) := by
  induction parts with
  | nil => rfl
  | cons part parts ih =>
      have hrest := ih fun p hp => h p (List.mem_cons_of_mem _ hp)
      have hpart := h part List.mem_cons_self
      rw [List.flatMap_cons]
      cases part with
      | literal c =>
          rw [Part.text, List.singleton_append, buildRegex, hrest]
          · rfl
          · exact hpart.1
      | field entry =>
          have hw := Placeholder.wellFormed hpart
          rw [Part.text, List.cons_append, List.append_assoc, buildRegex, List.singleton_append,
            buildRegex_inside entry.key [] _ hw.close_not_mem, List.append_nil, buildRegex,
            List.reverse_reverse, hw.looked_up, hrest, hw.base]
          rfl

theorem groupNames_elems (parts : List Part) :
    groupNames (parts.map Part.elem) = (fields parts).map Placeholder.name := by
  induction parts with
  | nil => rfl
  | cons part parts ih =>
      cases part with
      | literal c => exact ih
      | field entry => exact congrArg (entry.name :: ·) ih

theorem extractFieldNames_segments {parts : List Part} (h : ∀ part ∈ parts, part.Listed) :
    extractFieldNames (parts.map Part.segment) = (fields parts).map Placeholder.name := by
  induction parts with
  | nil => rfl
  | cons part parts ih =>
      have hrest := ih fun p hp => h p (List.mem_cons_of_mem _ hp)
      cases part with
      | literal c => exact hrest
      | field entry =>
          have hnamed := (Placeholder.wellFormed (h _ List.mem_cons_self)).named
          rw [List.map_cons, extractFieldNames, List.filterMap_cons_some (b := entry.name)]
          · exact congrArg (entry.name :: ·) hrest
          · exact if_neg hnamed

theorem mem_fields {parts : List Part} (h : ∀ part ∈ parts, part.Listed) {entry : Placeholder}
    (hmem : entry ∈ fields parts) : entry ∈ placeholderRegex := by
  induction parts with
  | nil => cases hmem
  | cons part parts ih =>
      have hrest := ih fun p hp => h p (List.mem_cons_of_mem _ hp)
      cases part with
      | literal c => exact hrest hmem
      | field e =>
          rcases List.mem_cons.mp hmem with rfl | hmem
          · exact h _ List.mem_cons_self
          · exact hrest hmem

/-- The parser of a template. -/
def Template.parser (template : Template) : CatCommandParser where
  template := template.text
  pattern := template.parts.map Part.elem
  converters := (fields template.parts).map fun entry => (entry.name, entry.converter)

theorem Template.new_parser (template : Template) :
    CatCommandParser.new template.text = .ok template.parser := by
  have hnodup : (groupNames (template.parts.map Part.elem)).Nodup := by
    rw [groupNames_elems]
    exact template.distinct
  rw [CatCommandParser.new, text, buildRegex_text template.listed]
  exact if_pos hnodup

/-- What is formatted is the segments of the template. -/
theorem Template.formatCommand_eq (template : Template) (kwargs : List (List Char × Value)) :
    formatCommand template.text kwargs =
      formatSegments kwargs (template.parts.map Part.segment) := by
  have hknown : ((fields template.parts).map Placeholder.name).filter
      (fun name => !allowedPlaceholders.contains name) = [] := by
    rw [List.filter_eq_nil_iff]
    intro name hname
    obtain ⟨entry, hentry, rfl⟩ := List.mem_map.mp hname
    rw [(Placeholder.wellFormed (mem_fields template.listed hentry)).allowed]
    exact Bool.false_ne_true
  rw [formatCommand, text, formatterParse_text template.listed]
  simp only [bind, Except.bind, extractFieldNames_segments template.listed, hknown, ne_eq,
    not_true_eq_false, if_false]

/-! ## Values and their texts -/

theorem digitValue_of_isDigit {c : Char} (h : c.isDigit = true) :
    digitValue c = some (c.toNat - '0'.toNat) := by
  obtain ⟨hlow, hhigh⟩ := Char.isDigit_iff_toNat.mp h
  change 48 ≤ c.toNat at hlow
  change c.toNat ≤ 57 at hhigh
  rw [digitValue, decimalZeros, List.findSome?_cons, if_pos ⟨hlow, by omega⟩]
  rfl

theorem isDigit_of_digitValue {c : Char} (hascii : c.toNat < 128)
    (h : (digitValue c).isSome = true) : c.isDigit = true := by
  obtain ⟨n, hn⟩ := Option.isSome_iff_exists.mp h
  obtain ⟨first, hfirst, hc⟩ := List.exists_of_findSome?_eq_some hn
  have hzeros : ∀ z ∈ decimalZeros, z = 48 ∨ 128 ≤ z := by decide
  split at hc
  · rename_i hrange
    rw [Char.isDigit_iff_toNat]
    change 48 ≤ c.toNat ∧ c.toNat ≤ 57
    have := hzeros first hfirst
    omega
  · cases hc

theorem intOfDigits_eq {text : List Char} (h : Decimal.AllDigits text) :
    intOfDigits text = Nat.ofDigitChars 10 text 0 := by
  induction text using List.reverseRecOn with
  | nil => rfl
  | append_singleton text c ih =>
      rw [intOfDigits, List.foldl_append, List.foldl_cons, List.foldl_nil,
        Decimal.ofDigitChars_snoc,
        digitValue_of_isDigit (h c (List.mem_append_right _ List.mem_cons_self)), Nat.mul_comm]
      exact congrArg (10 * · + _) (ih fun d hd => h d (List.mem_append_left _ hd))

theorem formatInt_ofNat (n width : Nat) :
    formatInt n width = (Nat.toDigits 10 n).leftpad width '0' := by
  rw [formatInt, if_neg (by omega), Int.natAbs_natCast]

theorem formatValue_int {n : Int} {spec : List Char} {width : Nat}
    (h : zeroPadded spec = some width) : formatValue (.int n) spec = .ok (formatInt n width) := by
  simp only [formatValue, h]

theorem formatValue_str (s : List Char) : formatValue (.str s) [] = .ok s := rfl

/-- The text of a value in a field. -/
structure Placeholder.Renders (entry : Placeholder) (value : Value) (text : List Char) : Prop where
  formatted : formatValue value entry.spec = .ok text
  converted : entry.converter.apply text = value

/-- A text that a field takes, and that no longer text follows. -/
structure Placeholder.Takes (entry : Placeholder) (text : List Char) : Prop where
  within : ∀ c ∈ text, entry.charClass.contains c = true
  low_le : entry.low ≤ text.length
  full : text.length = entry.high ∨ (text.length ≤ entry.high ∧ entry.name = "tag".toList ∧
    entry.charClass = .noneOf [';'])

/-- A value in the domain of a field has a text that the field takes. -/
theorem Placeholder.WellFormed.exists_text {entry : Placeholder} (hw : entry.WellFormed)
    {value : Value} (h : InDomain entry value) :
    ∃ text, entry.Renders value text ∧ entry.Takes text := by
  cases h with
  | @number n hclass hn =>
      obtain ⟨hspec, hconverter, hpos⟩ := hw.digits hclass
      have hlength : ((Nat.toDigits 10 n).leftpad entry.high '0').length = entry.high := by
        rw [List.length_leftpad]
        exact Nat.max_eq_left ((Nat.length_toDigits_le_iff (by omega) hpos).mpr hn)
      have hdigits : Decimal.AllDigits ((Nat.toDigits 10 n).leftpad entry.high '0') := by
        intro c hc
        rcases List.mem_append.mp hc with hzero | hdigit
        · rw [List.eq_of_mem_replicate hzero]
          rfl
        · exact Decimal.allDigits_toDigits _ c hdigit
      refine ⟨(Nat.toDigits 10 n).leftpad entry.high '0', ⟨?_, ?_⟩, ?_, ?_, .inl hlength⟩
      · rw [formatValue_int hspec, formatInt_ofNat]
      · rw [hconverter, Converter.apply, intOfDigits_eq hdigits, List.leftpad,
          Nat.ofDigitChars_append, Nat.ofDigitChars_replicate_zero, Nat.mul_zero,
          Nat.ofDigitChars_ten_toDigits]
      · intro c hc
        rw [hclass, CharClass.contains, digitValue_of_isDigit (hdigits c hc)]
        rfl
      · rw [hlength]
        exact hw.widths
  | @flag n hclass hn =>
      obtain ⟨hspec, hconverter, hlow, hhigh⟩ := hw.flag hclass
      have hbits : n = 0 ∨ n = 1 := by omega
      have htext : formatInt n 0 = [Nat.digitChar n] := by
        rw [formatInt_ofNat, Nat.toDigits_of_lt_base (by omega)]
        rfl
      refine ⟨[Nat.digitChar n], ⟨?_, ?_⟩, ?_, Nat.le_of_eq hlow, .inl hhigh.symm⟩
      · rw [hspec, ← htext]
        rfl
      · rw [hconverter]
        rcases hbits with rfl | rfl <;> rfl
      · intro c hc
        rw [List.mem_singleton.mp hc, hclass]
        rcases hbits with rfl | rfl <;> rfl
  | @text s hconverter hlow hhigh hclass =>
      refine ⟨s, ⟨?_, ?_⟩, hclass, hlow, ?_⟩
      · rw [hw.text hconverter, formatValue_str]
      · rw [hconverter]
        rfl
      · rcases hw.fixed with hfixed | ⟨-, hint, -⟩ | htag
        · exact .inl (by omega)
        · rw [hint] at hconverter
          cases hconverter
        · exact .inr ⟨hhigh, htag⟩

/-- A text of ASCII characters that a field takes is the text of its value, but
for a short delay. -/
theorem Placeholder.WellFormed.renders {entry : Placeholder} (hw : entry.WellFormed)
    {text : List Char} (hascii : ∀ c ∈ text, c.toNat < 128)
    (hclass : ∀ c ∈ text, entry.charClass.contains c = true) (hlow : entry.low ≤ text.length)
    (hhigh : text.length ≤ entry.high)
    (hdelay : entry.name = "delay".toList → text.length = 4) :
    entry.Renders (entry.converter.apply text) text := by
  refine ⟨?_, rfl⟩
  cases hconverter : entry.converter with
  | str =>
      rw [Converter.apply, hw.text hconverter, formatValue_str]
  | int =>
      rcases hw.kinds hconverter with hdigit | hflag
      · obtain ⟨hspec, -, hpos⟩ := hw.digits hdigit
        have hdigits : Decimal.AllDigits text := by
          intro c hc
          have hin := hclass c hc
          rw [hdigit] at hin
          exact isDigit_of_digitValue (hascii c hc) hin
        have hlength : text.length = entry.high := by
          rcases hw.fixed with hfixed | ⟨hname, -, hfour⟩ | ⟨-, htag⟩
          · omega
          · rw [hfour, hdelay hname]
          · rw [hdigit] at htag
            cases htag
        have hne : text ≠ [] := List.ne_nil_of_length_pos (by omega)
        rw [Converter.apply, formatValue_int hspec, formatInt_ofNat, intOfDigits_eq hdigits,
          ← hlength, Decimal.leftpad_toDigits hdigits hne]
      · obtain ⟨hspec, -, hone, hone'⟩ := hw.flag hflag
        obtain ⟨c, rfl⟩ := List.length_eq_one_iff.mp (show text.length = 1 by omega)
        have hin := hclass c List.mem_cons_self
        rw [hflag] at hin
        have hc : c = '0' ∨ c = '1' := by simpa [CharClass.contains] using hin
        rw [hspec]
        rcases hc with rfl | rfl <;> rfl

/-! ## Captures -/

theorem lookup_of_mem {ν : Type*} {items : List (List Char × ν)}
    (hnodup : (items.map Prod.fst).Nodup) {k : List Char} {x : ν} (hmem : (k, x) ∈ items) :
    items.lookup k = some x := by
  induction items with
  | nil => cases hmem
  | cons item items ih =>
      obtain ⟨k', x'⟩ := item
      rw [List.map_cons, List.nodup_cons] at hnodup
      rcases List.mem_cons.mp hmem with heq | hrest
      · cases heq
        exact List.lookup_cons_self
      · have hne : (k == k') = false := by
          refine beq_false_of_ne ?_
          rintro rfl
          exact hnodup.1 (List.mem_map.mpr ⟨_, hrest, rfl⟩)
        rw [List.lookup_cons, hne]
        exact ih hnodup.2 hrest

abbrev Capture := List Char × List Char

/-- A capture of a field. -/
structure Fits (entry : Placeholder) (capture : Capture) : Prop where
  name : capture.1 = entry.name
  within : ∀ c ∈ capture.2, entry.charClass.contains c = true
  low_le : entry.low ≤ capture.2.length
  le_high : capture.2.length ≤ entry.high

theorem fits_of_fills {parts : List Part} {captures : List Capture} {text : List Char}
    (h : Pattern.Fills (parts.map Part.elem) captures text) :
    List.Forall₂ Fits (fields parts) captures ∧
      ∀ capture ∈ captures, ∀ c ∈ capture.2, c ∈ text := by
  induction parts generalizing captures text with
  | nil =>
      cases h
      exact ⟨.nil, nofun⟩
  | cons part parts ih =>
      cases part with
      | literal c =>
          cases h with
          | literal h =>
              obtain ⟨hfits, hmem⟩ := ih h
              exact ⟨hfits, fun capture hc d hd => List.mem_cons_of_mem _ (hmem capture hc d hd)⟩
      | field entry =>
          cases h with
          | group hclass hlow hhigh h =>
              obtain ⟨hfits, hmem⟩ := ih h
              refine ⟨.cons ⟨rfl, hclass, hlow, hhigh⟩ hfits, fun capture hc d hd => ?_⟩
              rcases List.mem_cons.mp hc with rfl | hc
              · exact List.mem_append_left _ hd
              · exact List.mem_append_right _ (hmem capture hc d hd)

/-- Where the values have the captured texts, the text that the captures fill is formatted. -/
theorem formatSegments_of_fills {kwargs : List (List Char × Value)} {parts : List Part}
    {captures : List Capture} {text : List Char}
    (h : Pattern.Fills (parts.map Part.elem) captures text)
    (hvalues : List.Forall₂ (fun entry capture =>
      ∃ value, kwargs.lookup entry.name = some value ∧ entry.Renders value capture.2)
      (fields parts) captures) :
    formatSegments kwargs (parts.map Part.segment) = .ok text := by
  induction parts generalizing captures text with
  | nil =>
      cases h
      rfl
  | cons part parts ih =>
      cases part with
      | literal c =>
          cases h with
          | literal h =>
              rw [List.map_cons, Part.segment, formatSegments, ih h hvalues]
              rfl
      | field entry =>
          cases h with
          | group hclass hlow hhigh h =>
              cases hvalues with
              | cons hvalue hvalues =>
                  obtain ⟨value, hlookup, hrenders⟩ := hvalue
                  rw [List.map_cons, Part.segment, formatSegments, hlookup]
                  simp only [hrenders.formatted, ih h hvalues, bind, Except.bind, pure, Except.pure]

/-- The texts of values in their domains are what the pattern captures. -/
theorem exists_greedy {v : List Char → Value} {parts : List Part}
    (hlisted : ∀ part ∈ parts, part.Listed) (htags : TagsClosed parts)
    (hdomain : ∀ entry ∈ fields parts, InDomain entry (v entry.name)) :
    ∃ captures text, Pattern.Greedy [] (parts.map Part.elem) captures text ∧
      List.Forall₂ (fun entry capture =>
        capture.1 = entry.name ∧ entry.Renders (v entry.name) capture.2)
          (fields parts) captures := by
  induction parts with
  | nil => exact ⟨[], [], .nil, .nil⟩
  | cons part parts ih =>
      have hrest := fun p hp => hlisted p (List.mem_cons_of_mem _ hp)
      cases part with
      | literal c =>
          obtain ⟨captures, text, hgreedy, hrenders⟩ := ih hrest htags hdomain
          exact ⟨captures, c :: text, .literal hgreedy, hrenders⟩
      | field entry =>
          obtain ⟨htag, htags⟩ := htags
          obtain ⟨captures, text, hgreedy, hrenders⟩ :=
            ih hrest htags fun e he => hdomain e (List.mem_cons_of_mem _ he)
          have hw := Placeholder.wellFormed (hlisted _ List.mem_cons_self)
          obtain ⟨piece, hpiece, htakes⟩ := hw.exists_text (hdomain entry List.mem_cons_self)
          refine ⟨(entry.name, piece) :: captures, piece ++ text,
            .group htakes.within htakes.low_le ?_ hgreedy, .cons ⟨rfl, hpiece⟩ hrenders⟩
          rcases htakes.full with hfull | ⟨hhigh, hname, hclass⟩
          · exact .inl hfull
          · -- the semicolon behind a tag ends it
            obtain ⟨after, rfl⟩ := htag hname
            cases hgreedy with
            | literal hgreedy =>
                refine .inr ⟨hhigh, fun c hc => ?_⟩
                obtain rfl := Option.some.inj hc
                rw [hclass]
                rfl

/-- The name and the value of a captured field. -/
def converted (pair : Placeholder × Capture) : List Char × Value :=
  (pair.1.name, pair.1.converter.apply pair.2.2)

/-- What is parsed of captures. -/
theorem Template.parse_eq (template : Template) {response : List Char} {captures : List Capture}
    (hgroups : template.parser.groups response = some captures)
    (hnames : List.Forall₂ (fun entry capture => capture.1 = entry.name)
      (fields template.parts) captures) :
    template.parser.parse response =
      .ok (((fields template.parts).zip captures).map converted) := by
  have hconverters : ∀ entry ∈ fields template.parts,
      template.parser.converters.lookup entry.name = some entry.converter := by
    intro entry hentry
    refine lookup_of_mem ?_ (List.mem_map.mpr ⟨entry, hentry, rfl⟩)
    rw [parser, List.map_map]
    exact template.distinct
  rw [CatCommandParser.parse, hgroups]
  refine congrArg Except.ok ?_
  generalize fields template.parts = entries at hnames hconverters
  clear hgroups
  induction hnames with
  | nil => rfl
  | @cons entry capture entries captures hname _ ih =>
      obtain ⟨name, raw⟩ := capture
      obtain rfl : name = entry.name := hname
      rw [List.map_cons, List.zip_cons_cons, List.map_cons,
        ih fun e he => hconverters e (List.mem_cons_of_mem _ he)]
      simp only [hconverters entry List.mem_cons_self, converted, Option.getD_some]

/-- A parsed value is looked up by its name. -/
theorem Template.lookup_parsed (template : Template) {captures : List Capture}
    (hlength : (fields template.parts).length = captures.length) {entry : Placeholder}
    {capture : Capture} (hmem : (entry, capture) ∈ (fields template.parts).zip captures) :
    (((fields template.parts).zip captures).map converted).lookup entry.name =
      some (entry.converter.apply capture.2) := by
  refine lookup_of_mem ?_ (List.mem_map.mpr ⟨_, hmem, rfl⟩)
  rw [List.map_map]
  have hnames := congrArg (List.map Placeholder.name) (List.map_fst_zip hlength.le)
  rw [List.map_map] at hnames
  have hdistinct := template.distinct
  rw [← hnames] at hdistinct
  exact hdistinct

/-! ## The round trips -/

/-- The values of a command are what is parsed of it. -/
theorem Template.parse_formatted (template : Template) {v : List Char → Value}
    (htags : TagsClosed template.parts)
    (hdomain : ∀ entry ∈ fields template.parts, InDomain entry (v entry.name)) :
    ∃ text, formatCommand template.text (template.assignment v) = .ok text ∧
      template.parser.parse text = .ok (template.assignment v) := by
  obtain ⟨captures, text, hgreedy, hrenders⟩ := exists_greedy template.listed htags hdomain
  have hlookup : ∀ entry ∈ fields template.parts,
      (template.assignment v).lookup entry.name = some (v entry.name) := by
    intro entry hentry
    refine lookup_of_mem ?_ (List.mem_map.mpr ⟨entry, hentry, rfl⟩)
    rw [assignment, List.map_map]
    exact template.distinct
  refine ⟨text, ?_, ?_⟩
  · rw [formatCommand_eq]
    refine formatSegments_of_fills hgreedy.fills ?_
    rw [List.forall₂_iff_zip] at hrenders ⊢
    refine ⟨hrenders.1, fun {entry capture} hmem => ?_⟩
    exact ⟨v entry.name, hlookup entry (List.of_mem_zip hmem).1, (hrenders.2 hmem).2⟩
  · have hend : atEnd [] = true := rfl
    have hgroups := Pattern.run_greedy hend hgreedy
    rw [List.append_nil] at hgroups
    rw [template.parse_eq hgroups (hrenders.imp fun _ _ h => h.1), assignment]
    refine congrArg Except.ok ?_
    generalize fields template.parts = entries at hrenders
    clear hgroups hgreedy hlookup hdomain
    induction hrenders with
    | nil => rfl
    | @cons entry capture entries captures hrender _ ih =>
        rw [List.zip_cons_cons, List.map_cons, ih, converted, hrender.2.converted]
        rfl

/-- A printable character of ASCII. -/
def IsPrintable (c : Char) : Prop := 32 ≤ c.toNat ∧ c.toNat < 127

instance (c : Char) : Decidable (IsPrintable c) :=
  inferInstanceAs (Decidable (32 ≤ c.toNat ∧ c.toNat < 127))

/-- What is parsed of a printable response formats to it, but for a short delay. -/
theorem Template.format_parsed (template : Template) {response : List Char}
    {result : List (List Char × Value)} {groups : List Capture}
    (hprintable : ∀ c ∈ response, IsPrintable c)
    (hgroups : template.parser.groups response = some groups)
    (hresult : template.parser.parse response = .ok result)
    (hdelay : ∀ raw, ("delay".toList, raw) ∈ groups → raw.length = 4) :
    formatCommand template.text result = .ok response := by
  obtain ⟨filled, rest, rfl, hrest, hfills⟩ := Pattern.run_fills hgroups
  have hnil : rest = [] := by
    rw [atEnd, Bool.or_eq_true, beq_iff_eq, beq_iff_eq] at hrest
    refine hrest.resolve_right ?_
    rintro rfl
    have := hprintable '\n' (List.mem_append_right _ List.mem_cons_self)
    exact absurd this (by decide)
  subst hnil
  rw [List.append_nil] at *
  obtain ⟨hfits, hmem⟩ := fits_of_fills hfills
  rw [template.parse_eq hgroups (hfits.imp fun _ _ h => h.name)] at hresult
  cases hresult
  rw [formatCommand_eq]
  refine formatSegments_of_fills hfills ?_
  rw [List.forall₂_iff_zip] at hfits ⊢
  refine ⟨hfits.1, fun {entry capture} hpair => ⟨_, template.lookup_parsed hfits.1 hpair, ?_⟩⟩
  have hfit := hfits.2 hpair
  obtain ⟨hentry, hcapture⟩ := List.of_mem_zip hpair
  have hw := Placeholder.wellFormed (mem_fields template.listed hentry)
  refine hw.renders (fun c hc => ?_) hfit.within hfit.low_le hfit.le_high fun hname => ?_
  · have := hprintable c (hmem capture hcapture c hc)
    exact Nat.lt_trans this.2 (by omega)
  · refine hdelay capture.2 ?_
    rw [← hname, ← hfit.name]
    exact hcapture

/-- A parser is made for each template; it parses what the template formats, and what it parses of a
printable response formats to that response, but for a short delay. -/
theorem Template.round_trip (template : Template) :
    ∃ parser, CatCommandParser.new template.text = .ok parser ∧
      (∀ v, TagsClosed template.parts →
        (∀ entry ∈ fields template.parts, InDomain entry (v entry.name)) →
        ∃ text, formatCommand template.text (template.assignment v) = .ok text ∧
          parser.parse text = .ok (template.assignment v)) ∧
      ∀ response result groups, (∀ c ∈ response, IsPrintable c) →
        parser.groups response = some groups → parser.parse response = .ok result →
        (∀ raw, ("delay".toList, raw) ∈ groups → raw.length = 4) →
        formatCommand template.text result = .ok response :=
  ⟨template.parser, template.new_parser,
    fun _ htags hdomain => template.parse_formatted htags hdomain,
    fun _ _ _ hprintable hgroups hresult hdelay =>
      template.format_parsed hprintable hgroups hresult hdelay⟩

/-- `FA{freq:09d};` -/
def vfoTemplate : Template where
  parts := [.literal 'F', .literal 'A', .field (digits "freq:09d" "freq" 9 9), .literal ';']
  listed := by
    simp only [List.forall_mem_cons]
    exact ⟨⟨by decide, by decide⟩, ⟨by decide, by decide⟩, List.mem_cons_self,
      ⟨by decide, by decide⟩, nofun⟩
  distinct := List.nodup_singleton _

/-- A frequency is formatted and parsed, and a response parsed and formatted. -/
theorem round_trip_vfo :
    (∃ parser text, CatCommandParser.new "FA\x7bfreq:09d\x7d;".toList = .ok parser ∧
      formatCommand "FA\x7bfreq:09d\x7d;".toList [("freq".toList, .int 14074000)] = .ok text ∧
      parser.parse text = .ok [("freq".toList, .int 14074000)]) ∧
    formatCommand "FA\x7bfreq:09d\x7d;".toList [("freq".toList, .int 7030000)] =
      .ok "FA007030000;".toList := by
  have htext : vfoTemplate.text = "FA\x7bfreq:09d\x7d;".toList := by decide +kernel
  obtain ⟨parser, hnew, hformatted, hparsed⟩ := vfoTemplate.round_trip
  rw [htext] at hnew hformatted hparsed
  refine ⟨?_, ?_⟩
  · obtain ⟨text, hformat, hparse⟩ := hformatted (fun _ => .int 14074000)
      ⟨fun _ => ⟨[], rfl⟩, trivial⟩ (by
      intro entry hentry
      obtain rfl := List.mem_singleton.mp hentry
      exact .number (n := 14074000) rfl (by decide))
    exact ⟨parser, text, hnew, hformat, hparse⟩
  · have hparser : parser = vfoTemplate.parser := by
      have := vfoTemplate.new_parser
      rw [htext, hnew] at this
      exact Except.ok.inj this
    have hprintable : ("FA007030000;".toList.all fun c => decide (IsPrintable c)) = true := by
      decide +kernel
    refine hparsed "FA007030000;".toList _ [("freq".toList, "007030000".toList)]
      (fun c hc => of_decide_eq_true (List.all_eq_true.mp hprintable c hc))
      (by rw [hparser]; decide +kernel) (by rw [hparser]; decide +kernel) ?_
    intro raw hraw
    rw [List.mem_singleton] at hraw
    have hname : "delay".toList = "freq".toList := congrArg Prod.fst hraw
    exact absurd hname (by decide)

end Rigplane.Cat
