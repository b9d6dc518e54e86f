import Rigplane.Rigctld.Grammar
import Rigplane.RigctldClient.Served

/-!
# The requests of the client

What the radio of `backends/rigctld_client/radio.py` writes, with the exchange that sends it, and
what the server of this repository reads: `request_understood`.

A mode is an ASCII text here, so that `upper` acts on its letters alone.  A gain is written with
three decimals, and `2000 * level` is never an odd multiple of 255, so there is no tie that the
rounding of the quotient could decide.
-/

namespace Rigplane.RigctldClient

open Rigplane.Rigctld

inductive Slot where
  | a
  | b
deriving DecidableEq

def Slot.letter : Slot → List Char
  | a => ['A']
  | b => ['B']

/-- The calls of the radio that send something. -/
inductive Request where
  | getFreq
  | setFreq (freq : Int)
  | getMode
  | setMode (mode : List Char) (filterWidth : Option Int)
  | getPtt
  | setPtt (on : Bool)
  | getVfoSlot
  | setVfoSlot (slot : Slot)
  | getRfGain
  | setRfGain (level : Int)
  | getAfLevel
  | setAfLevel (level : Int)
  | getPreamp
  | setPreamp (level : Int)
  | getAttenuatorLevel
  | setAttenuator (on : Bool)
  | setAttenuatorLevel (db : Int)
  | getNb
  | setNb (on : Bool)
  | getNr
  | setNr (on : Bool)
deriving DecidableEq

/-! ## What is written -/

/-- `str(n)` and `f"{n}"`, which refuse an integer with too many digits. -/
def decimal (n : Int) : Option (List Char) :=
  if (Nat.toDigits 10 n.natAbs).length ≤ 4300 then some (toString n).toList else none

/-- `str(n).zfill(3)` of a number below a thousand. -/
def threeDigits (n : Nat) : List Char :=
  [Nat.digitChar (n / 100), Nat.digitChar (n / 10 % 10), Nat.digitChar (n % 10)]

/-- `_level_255_to_float`. -/
def level255ToFloat (level : Int) : List Char :=
  let clamped := max 0 (min 255 level)
  let thousandths := (2000 * clamped.toNat + 255) / 510
  Nat.digitChar (thousandths / 1000) :: '.' :: threeDigits (thousandths % 1000)

/-- `_preamp_level_to_db`. -/
def preampLevelToDb : Int → Option (List Char)
  | 0 => some "0".toList
  | 1 => some "10".toList
  | 2 => some "20".toList
  | _ => none

def flag (on : Bool) : List Char := if on then ['1'] else ['0']

/-- `mode.strip().upper()`. -/
def normalized (mode : List Char) : List Char := (strip mode).map Char.toUpper

namespace Request

/-- The command letter. -/
def short : Request → String
  | getFreq => "f"
  | setFreq _ => "F"
  | getMode => "m"
  | setMode _ _ => "M"
  | getPtt => "t"
  | setPtt _ => "T"
  | getVfoSlot => "v"
  | setVfoSlot _ => "V"
  | getRfGain | getAfLevel | getPreamp | getAttenuatorLevel => "l"
  | setRfGain _ | setAfLevel _ | setPreamp _ | setAttenuator _ | setAttenuatorLevel _ => "L"
  | getNb | getNr => "u"
  | setNb _ | setNr _ => "U"

/-- The words after it; `none` where the call raises before it writes. -/
def args : Request → Option (List (List Char))
  | getFreq | getMode | getPtt | getVfoSlot => some []
  | setFreq freq => if freq ≤ 0 then none else (decimal freq).map fun text => [text]
  | setMode mode filterWidth =>
      if normalized mode = [] then none
      else match filterWidth with
        | none => some [normalized mode]
        | some width =>
            if width < 0 then none else (decimal width).map fun text => [normalized mode, text]
  | setPtt on => some [flag on]
  | setVfoSlot slot => some ["VFO".toList ++ slot.letter]
  | getRfGain => some ["RF".toList]
  | setRfGain level => some ["RF".toList, level255ToFloat level]
  | getAfLevel => some ["AF".toList]
  | setAfLevel level => some ["AF".toList, level255ToFloat level]
  | getPreamp => some ["PREAMP".toList]
  | setPreamp level => (preampLevelToDb level).map fun text => ["PREAMP".toList, text]
  | getAttenuatorLevel => some ["ATT".toList]
  | setAttenuator on => some ["ATT".toList, if on then ['6'] else ['0']]
  | setAttenuatorLevel db => (decimal db).map fun text => ["ATT".toList, text]
  | getNb => some ["NB".toList]
  | setNb on => some ["NB".toList, flag on]
  | getNr => some ["NR".toList]
  | setNr on => some ["NR".toList, flag on]

/-- The line it writes, without its newline. -/
def line (r : Request) (args : List (List Char)) : List Char :=
  [' '].intercalate (r.short.toList :: args)

/-- The exchange that sends it. -/
def kind : Request → Kind
  | getMode => .query 2
  | getFreq | getPtt | getVfoSlot | getRfGain | getAfLevel | getPreamp | getAttenuatorLevel
  | getNb | getNr => .query 1
  | setFreq _ | setMode _ _ | setPtt _ | setVfoSlot _ | setRfGain _ | setAfLevel _ | setPreamp _
  | setAttenuator _ | setAttenuatorLevel _ | setNb _ | setNr _ => .command

/-! ## What is meant -/

/-- The command that the call means. -/
def longCmd : Request → String
  | getFreq => "get_freq"
  | setFreq _ => "set_freq"
  | getMode => "get_mode"
  | setMode _ _ => "set_mode"
  | getPtt => "get_ptt"
  | setPtt _ => "set_ptt"
  | getVfoSlot => "get_vfo"
  | setVfoSlot _ => "set_vfo"
  | getRfGain | getAfLevel | getPreamp | getAttenuatorLevel => "get_level"
  | setRfGain _ | setAfLevel _ | setPreamp _ | setAttenuator _ | setAttenuatorLevel _ => "set_level"
  | getNb | getNr => "get_func"
  | setNb _ | setNr _ => "set_func"

/-- The number that the last argument carries, where the server reads it by `int`.  A frequency and
a level it reads by `float`. -/
def number : Request → Option Int
  | setMode _ filterWidth => filterWidth
  | setPtt on | setNb on | setNr on => some (if on then 1 else 0)
  | _ => none

/-- A mode is one word, and is not taken for the VFO that a command may begin with. -/
def Sound : Request → Prop
  | setMode mode _ => (∀ ch ∈ normalized mode, ch.toNat < 128 ∧ isSpace ch = false) ∧
      normalized mode ∉ vfoLabels
  | _ => True

end Request

/-! ## Decimal texts -/

/-- A word of ASCII characters. -/
structure Spoken (text : List Char) : Prop where
  word : Words.Word isSpace text
  ascii : ∀ ch ∈ text, ch.toNat < 128

theorem spoken_of_chars {text : List Char} (hne : text ≠ [])
    (h : ∀ ch ∈ text, 33 ≤ ch.toNat ∧ ch.toNat < 128) : Spoken text where
  word := by
    refine ⟨hne, fun ch hch => ?_⟩
    have hrange := h ch hch
    simp only [isSpace, decide_eq_false_iff_not]
    omega
  ascii ch hch := (h ch hch).2

/-- Neither a blank nor outside ASCII. -/
def printable (ch : Char) : Bool := 33 ≤ ch.toNat ∧ ch.toNat < 128

theorem spoken_of_printable {text : List Char} (hne : text ≠ [])
    (h : text.all printable = true) : Spoken text :=
  spoken_of_chars hne fun ch hch => of_decide_eq_true (List.all_eq_true.mp h ch hch)

theorem number_chars (n : Int) : ∀ ch ∈ (toString n).toList, 33 ≤ ch.toNat ∧ ch.toNat < 128 := by
  intro ch hch
  rcases toString_chars n ch hch with rfl | hdigit
  · decide
  · have hrange := isDigit_toNat hdigit
    omega

theorem toString_nonneg {n : Int} (h : 0 ≤ n) : (toString n).toList = Nat.toDigits 10 n.natAbs := by
  obtain ⟨m, rfl⟩ := Int.eq_ofNat_of_zero_le h
  show m.repr.toList = _
  rw [Nat.toList_repr]
  rfl

theorem toString_neg {n : Int} (h : n < 0) :
    (toString n).toList = '-' :: Nat.toDigits 10 n.natAbs := by
  obtain ⟨m, rfl⟩ := Int.eq_negSucc_of_lt_zero h
  show ("-" ++ (m + 1).repr).toList = _
  rw [String.toList_append, Nat.toList_repr]
  rfl

theorem strip_spoken {text : List Char} (h : Spoken text) : strip text = text := by
  have hsolid := h.word.solid
  have hdrop : text.dropWhile isSpace = text := by
    rw [List.dropWhile_eq_self_iff]
    intro hlength hspace
    rw [hsolid _ (List.getElem_mem hlength)] at hspace
    cases hspace
  rw [strip, hdrop, List.rdropWhile_eq_self_iff]
  intro hne hspace
  rw [hsolid _ (List.getLast_mem hne)] at hspace
  cases hspace

/-- `int(str(n))`. -/
theorem parseInt_decimal {n : Int} {text : List Char} (h : decimal n = some text) :
    Spoken text ∧ parseInt text = some n := by
  rw [decimal] at h
  split at h
  · rename_i hlength
    cases h
    have hdigits : ∀ ch ∈ Nat.toDigits 10 n.natAbs, ch.isDigit := fun ch hch =>
      Nat.isDigit_of_mem_toDigits (by decide) (by decide) hch
    have hne : Nat.toDigits 10 n.natAbs ≠ [] := Nat.toDigits_ne_nil
    have hsplit : (Nat.toDigits 10 n.natAbs).splitOn '_' = [Nat.toDigits 10 n.natAbs] := by
      rw [List.splitOn_eq_splitOnP]
      refine List.splitOnP_eq_singleton fun ch hch => ?_
      rw [beq_eq_false_iff_ne]
      rintro rfl
      exact absurd (hdigits _ hch) (by decide)
    have hspoken : Spoken (toString n).toList := by
      refine spoken_of_chars ?_ (number_chars n)
      rcases lt_or_ge n 0 with hneg | hnonneg
      · rw [toString_neg hneg]
        exact List.cons_ne_nil _ _
      · rw [toString_nonneg hnonneg]
        exact hne
    refine ⟨hspoken, ?_⟩
    have hgroup : ([Nat.toDigits 10 n.natAbs].all fun group =>
        group ≠ [] ∧ group.all Char.isDigit) = true := by
      simp only [List.all_cons, List.all_nil, Bool.and_true, decide_eq_true_eq]
      exact ⟨hne, List.all_eq_true.mpr hdigits⟩
    rw [parseInt, strip_spoken hspoken]
    rcases lt_or_ge n 0 with hneg | hnonneg
    · rw [toString_neg hneg]
      simp only [List.head?_cons, List.tail_cons, true_or, if_true, hsplit, List.flatten_cons,
        List.flatten_nil, List.append_nil]
      rw [if_pos ⟨hgroup, hlength⟩, Nat.ofDigitChars_toDigits (by decide) (by decide)]
      congr 1
      omega
    · rw [toString_nonneg hnonneg]
      have hfirst : ∀ ch, (Nat.toDigits 10 n.natAbs).head? = some ch → ch.isDigit := fun ch hch =>
        hdigits ch (List.mem_of_mem_head? hch)
      have hminus : (Nat.toDigits 10 n.natAbs).head? ≠ some '-' := fun hch =>
        absurd (hfirst _ hch) (by decide)
      have hplus : (Nat.toDigits 10 n.natAbs).head? ≠ some '+' := fun hch =>
        absurd (hfirst _ hch) (by decide)
      simp only [hminus, hplus, or_self, if_false, hsplit, List.flatten_cons,
        List.flatten_nil, List.append_nil]
      rw [if_pos ⟨hgroup, hlength⟩, Nat.ofDigitChars_toDigits (by decide) (by decide)]
      congr 1
      omega
  · cases h

theorem digitChar_range {n : Nat} (h : n < 10) :
    33 ≤ (Nat.digitChar n).toNat ∧ (Nat.digitChar n).toNat < 128 := by
  have hdigit : (Nat.digitChar n).isDigit := Nat.isDigit_digitChar.trans (decide_eq_true h)
  have hrange := isDigit_toNat hdigit
  omega

theorem level_spoken (level : Int) : Spoken (level255ToFloat level) := by
  rw [level255ToFloat]
  generalize hthousandths : (2000 * (max 0 (min 255 level)).toNat + 255) / 510 = thousandths
  have hbound : thousandths ≤ 1000 := by omega
  refine spoken_of_chars (List.cons_ne_nil _ _) fun ch hch => ?_
  simp only [threeDigits, List.mem_cons, List.not_mem_nil, or_false] at hch
  rcases hch with rfl | rfl | rfl | rfl | rfl
  · exact digitChar_range (by omega)
  · decide
  · exact digitChar_range (by omega)
  · exact digitChar_range (by omega)
  · exact digitChar_range (by omega)

/-- The words that a line has as they are. -/
def fixedWords : List (List Char) :=
  ["RF".toList, "AF".toList, "PREAMP".toList, "ATT".toList, "NB".toList, "NR".toList, "VFOA".toList,
    "VFOB".toList, "0".toList, "1".toList, "6".toList, "10".toList, "20".toList]

theorem fixed_spoken : ∀ text ∈ fixedWords, Spoken text := by
  have hchars : ∀ text ∈ fixedWords, text ≠ [] ∧ text.all printable = true := by decide
  exact fun text htext => spoken_of_printable (hchars text htext).1 (hchars text htext).2

theorem flag_fixed (on : Bool) : flag on ∈ fixedWords := by
  cases on with
  | true => decide
  | false => decide

theorem flag_number (on : Bool) : parseInt (flag on) = some (if on then 1 else 0) := by
  cases on with
  | true => decide
  | false => decide

theorem labels_marked : ∀ label ∈ vfoLabels, 'V' ∈ label := by decide

theorem decimal_unmarked {n : Int} {text : List Char} (h : decimal n = some text) :
    text ∉ vfoLabels := by
  intro hlabel
  have hmark := labels_marked text hlabel
  rw [decimal] at h
  split at h
  · cases h
    rcases toString_chars n _ hmark with hminus | hdigit
    · exact absurd hminus (by decide)
    · exact absurd hdigit (by decide)
  · cases h

/-! ## What is read -/

theorem short_printable : ∀ d ∈ commandDefs,
    d.short.toList ≠ [] ∧ d.short.toList.all printable = true := by decide +kernel

theorem short_spoken {d : CommandDef} (hd : d ∈ commandDefs) : Spoken d.short.toList :=
  spoken_of_printable (short_printable d hd).1 (short_printable d hd).2

/-- A command letter and arguments with one blank between them. -/
theorem spoken_command {d : CommandDef} (hd : d ∈ commandDefs) {args : List (List Char)}
    (hspoken : ∀ arg ∈ args, Spoken arg) (hmin : d.minArgs ≤ args.length)
    (hmax : args.length ≤ d.maxArgs)
    (hvfo : d.acceptsVfoArg → ∀ arg ∈ args.head?, arg ∉ vfoLabels) :
    parseLine (asciiBytes ([' '].intercalate (d.short.toList :: args))) =
      .ok { shortCmd := d.short, longCmd := d.long, args, isSet := d.isSet } := by
  have hwords : ∀ word ∈ d.short.toList :: args, Spoken word := List.forall_mem_cons.mpr
    ⟨short_spoken hd, hspoken⟩
  have hascii : ∀ ch ∈ [' '].intercalate (d.short.toList :: args), ch.toNat < 128 := by
    intro ch hch
    obtain rfl | ⟨word, hword, hch⟩ := Words.mem_intercalate hch
    · decide
    · exact (hwords word hword).ascii ch hch
  refine (parseLine_words _).mpr ⟨d, hd, d.short.toList, List.mem_cons_self, ?_, ?_⟩
  · refine ⟨rfl, rfl, rfl, hmin, hmax, fun label => ⟨fun h => (by cases h), fun _ hhead h => ?_⟩⟩
    exact hvfo h.1 label hhead h.2
  · rw [decodeAscii_asciiBytes hascii]
    exact (Words.spelled_intercalate rfl fun word hword => (hwords word hword).word).words

namespace Request

variable {r : Request} {args : List (List Char)}

theorem args_spoken (hargs : r.args = some args) (hsound : r.Sound) :
    ∀ arg ∈ args, Spoken arg := by
  have hnone : ∀ arg ∈ ([] : List (List Char)), Spoken arg := fun _ harg => by cases harg
  have hone {text : List Char} (h : Spoken text) : ∀ arg ∈ [text], Spoken arg :=
    List.forall_mem_singleton.mpr h
  have htwo {text more : List Char} (h : Spoken text) (h' : Spoken more) :
      ∀ arg ∈ [text, more], Spoken arg := List.forall_mem_cons.mpr ⟨h, hone h'⟩
  have hfixed {text : List Char} (h : text ∈ fixedWords) : Spoken text := fixed_spoken text h
  cases r with
  | getFreq | getMode | getPtt | getVfoSlot =>
      cases hargs
      exact hnone
  | getRfGain | getAfLevel | getPreamp | getAttenuatorLevel | getNb | getNr =>
      cases hargs
      exact hone (hfixed (by decide))
  | setFreq freq =>
      rw [Request.args] at hargs
      split at hargs
      · cases hargs
      · obtain ⟨text, htext, rfl⟩ := Option.map_eq_some_iff.mp hargs
        exact hone (parseInt_decimal htext).1
  | setMode mode width =>
      have hmode (hne : normalized mode ≠ []) : Spoken (normalized mode) :=
        ⟨⟨hne, fun ch hch => (hsound.1 ch hch).2⟩, fun ch hch => (hsound.1 ch hch).1⟩
      cases width with
      | none =>
          rw [Request.args] at hargs
          split at hargs
          · cases hargs
          · rename_i hne
            cases hargs
            exact hone (hmode hne)
      | some width =>
          rw [Request.args] at hargs
          split at hargs
          · cases hargs
          rename_i hne
          split at hargs
          · cases hargs
          · obtain ⟨text, htext, rfl⟩ := Option.map_eq_some_iff.mp hargs
            exact htwo (hmode hne) (parseInt_decimal htext).1
  | setPtt on =>
      cases hargs
      exact hone (hfixed (flag_fixed on))
  | setVfoSlot slot =>
      cases hargs
      cases slot with
      | a => exact hone (hfixed (by decide))
      | b => exact hone (hfixed (by decide))
  | setRfGain level | setAfLevel level =>
      cases hargs
      exact htwo (hfixed (by decide)) (level_spoken level)
  | setPreamp level =>
      obtain ⟨text, htext, rfl⟩ := Option.map_eq_some_iff.mp hargs
      refine htwo (hfixed (by decide)) (hfixed ?_)
      rw [preampLevelToDb.eq_def] at htext
      split at htext
      · cases htext
        decide
      · cases htext
        decide
      · cases htext
        decide
      · cases htext
  | setAttenuator on =>
      cases hargs
      cases on with
      | true => exact htwo (hfixed (by decide)) (hfixed (by decide))
      | false => exact htwo (hfixed (by decide)) (hfixed (by decide))
  | setAttenuatorLevel db =>
      obtain ⟨text, htext, rfl⟩ := Option.map_eq_some_iff.mp hargs
      exact htwo (hfixed (by decide)) (parseInt_decimal htext).1
  | setNb on | setNr on =>
      cases hargs
      exact htwo (hfixed (by decide)) (hfixed (flag_fixed on))

/-- The number that a call is given is the one that the server's `int` reads. -/
theorem args_number (hargs : r.args = some args) {n : Int} (hn : r.number = some n) :
    ∃ text ∈ args.getLast?, parseInt text = some n := by
  cases r with
  | setMode mode width =>
      have hwidth : width = some n := hn
      subst hwidth
      rw [Request.args] at hargs
      split at hargs
      · cases hargs
      split at hargs
      · cases hargs
      · obtain ⟨text, htext, rfl⟩ := Option.map_eq_some_iff.mp hargs
        exact ⟨text, rfl, (parseInt_decimal htext).2⟩
  | setPtt on | setNb on | setNr on =>
      cases hargs
      cases hn
      exact ⟨flag on, rfl, flag_number on⟩
  | getFreq | getMode | getPtt | getVfoSlot | getRfGain | getAfLevel | getPreamp
  | getAttenuatorLevel | getNb | getNr | setFreq _ | setVfoSlot _ | setRfGain _ | setAfLevel _
  | setPreamp _ | setAttenuator _ | setAttenuatorLevel _ => cases hn

/-- The table has the command that a call means, under the letter that it writes. -/
theorem entry_of (hargs : r.args = some args) (hsound : r.Sound) : ∃ d ∈ commandDefs,
    (d.short = r.short ∧ d.long = r.longCmd ∧ d.isSet = decide (r.kind = .command)) ∧
      (d.minArgs ≤ args.length ∧ args.length ≤ d.maxArgs) ∧
        (d.acceptsVfoArg → ∀ arg ∈ args.head?, arg ∉ vfoLabels) := by
  have hnone : ∀ arg ∈ ([] : List (List Char)).head?, arg ∉ vfoLabels := fun _ harg => by cases harg
  have hhead {text : List Char} {more : List (List Char)} (h : text ∉ vfoLabels) :
      ∀ arg ∈ (text :: more).head?, arg ∉ vfoLabels := fun arg harg => by
    cases harg
    exact h
  cases r with
  | getFreq =>
      cases hargs
      exact ⟨commandDefs[0], List.getElem_mem _, ⟨rfl, rfl, rfl⟩, ⟨le_rfl, le_rfl⟩, fun _ => hnone⟩
  | getMode =>
      cases hargs
      exact ⟨commandDefs[1], List.getElem_mem _, ⟨rfl, rfl, rfl⟩, ⟨le_rfl, le_rfl⟩, fun _ => hnone⟩
  | getPtt =>
      cases hargs
      exact ⟨commandDefs[2], List.getElem_mem _, ⟨rfl, rfl, rfl⟩, ⟨le_rfl, le_rfl⟩, fun _ => hnone⟩
  | getVfoSlot =>
      cases hargs
      exact ⟨commandDefs[3], List.getElem_mem _, ⟨rfl, rfl, rfl⟩, ⟨le_rfl, le_rfl⟩, fun _ => hnone⟩
  | getRfGain | getAfLevel | getPreamp | getAttenuatorLevel =>
      cases hargs
      exact ⟨commandDefs[5], List.getElem_mem _, ⟨rfl, rfl, rfl⟩, ⟨le_rfl, le_rfl⟩,
        fun _ => hhead (by decide)⟩
  | getNb | getNr =>
      cases hargs
      exact ⟨commandDefs[6], List.getElem_mem _, ⟨rfl, rfl, rfl⟩, ⟨le_rfl, le_rfl⟩,
        fun _ => hhead (by decide)⟩
  | setFreq freq =>
      rw [Request.args] at hargs
      split at hargs
      · cases hargs
      · obtain ⟨text, htext, rfl⟩ := Option.map_eq_some_iff.mp hargs
        exact ⟨commandDefs[10], List.getElem_mem _, ⟨rfl, rfl, rfl⟩, ⟨le_rfl, le_rfl⟩,
          fun _ => hhead (decimal_unmarked htext)⟩
  | setMode mode width =>
      have hlength : 1 ≤ args.length ∧ args.length ≤ 2 ∧ args.head? = some (normalized mode) := by
        cases width with
        | none =>
            rw [Request.args] at hargs
            split at hargs
            · cases hargs
            · cases hargs
              exact ⟨le_rfl, Nat.le_succ 1, rfl⟩
        | some width =>
            rw [Request.args] at hargs
            split at hargs
            · cases hargs
            split at hargs
            · cases hargs
            · obtain ⟨text, -, rfl⟩ := Option.map_eq_some_iff.mp hargs
              exact ⟨Nat.le_succ 1, le_rfl, rfl⟩
      refine ⟨commandDefs[11], List.getElem_mem _, ⟨rfl, rfl, rfl⟩, ⟨hlength.1, hlength.2.1⟩,
        fun _ => ?_⟩
      rw [hlength.2.2]
      rintro arg harg
      cases harg
      exact hsound.2
  | setPtt on =>
      cases hargs
      refine ⟨commandDefs[12], List.getElem_mem _, ⟨rfl, rfl, rfl⟩, ⟨le_rfl, le_rfl⟩,
        fun _ => hhead ?_⟩
      cases on with
      | true => decide
      | false => decide
  | setVfoSlot slot =>
      cases hargs
      exact ⟨commandDefs[13], List.getElem_mem _, ⟨rfl, rfl, rfl⟩, ⟨le_rfl, le_rfl⟩,
        fun h => by cases h⟩
  | setRfGain _ | setAfLevel _ | setAttenuator _ =>
      cases hargs
      exact ⟨commandDefs[14], List.getElem_mem _, ⟨rfl, rfl, rfl⟩, ⟨le_rfl, le_rfl⟩,
        fun _ => hhead (by decide)⟩
  | setPreamp _ | setAttenuatorLevel _ =>
      obtain ⟨text, -, rfl⟩ := Option.map_eq_some_iff.mp hargs
      exact ⟨commandDefs[14], List.getElem_mem _, ⟨rfl, rfl, rfl⟩, ⟨le_rfl, le_rfl⟩,
        fun _ => hhead (by decide)⟩
  | setNb _ | setNr _ =>
      cases hargs
      exact ⟨commandDefs[15], List.getElem_mem _, ⟨rfl, rfl, rfl⟩, ⟨le_rfl, le_rfl⟩,
        fun _ => hhead (by decide)⟩

end Request

/-- The server reads the line of a call as the command that the call means, with the same arguments,
and its `int` gives back the number that the call was given. -/
theorem request_understood (r : Request) {args : List (List Char)} (hargs : r.args = some args)
    (hsound : r.Sound) :
    parseLine (asciiBytes (r.line args)) = .ok {
      shortCmd := r.short, longCmd := r.longCmd, args, isSet := decide (r.kind = .command) } ∧
    ∀ n, r.number = some n → ∃ text ∈ args.getLast?, parseInt text = some n := by
  obtain ⟨d, hd, ⟨hshort, hlong, hset⟩, ⟨hmin, hmax⟩, hvfo⟩ := Request.entry_of hargs hsound
  refine ⟨?_, fun n hn => Request.args_number hargs hn⟩
  rw [Request.line, ← hshort, ← hlong, ← hset]
  exact spoken_command hd (Request.args_spoken hargs hsound) hmin hmax hvfo

theorem request_understood_narrow :
    parseLine (asciiBytes "M CW 500".toList) = .ok {
      shortCmd := "M", longCmd := "set_mode", args := ["CW".toList, "500".toList], isSet := true } ∧
    ∀ n, some (500 : Int) = some n →
      ∃ text ∈ ["CW".toList, "500".toList].getLast?, parseInt text = some n := by
  have hargs : (Request.setMode " cw".toList (some 500)).args =
      some ["CW".toList, "500".toList] := by
    decide
  have hchars : ((normalized " cw".toList).all fun ch =>
      ch.toNat < 128 ∧ isSpace ch = false) = true := by decide
  simp only [List.all_eq_true, decide_eq_true_eq] at hchars
  exact request_understood (.setMode " cw".toList (some 500)) hargs ⟨hchars, by decide⟩

end Rigplane.RigctldClient
