import Rigplane.Rigctld.Protocol

/-!
# The grammar of a command line

`parseLine_iff` says which lines `parse_line` accepts, and as what: white space apart, a line is a
name of a command, perhaps a VFO label, and as many arguments as the command takes.  A name is the
short or the long one, with or without a backslash.
-/

namespace Rigplane.Rigctld

open Words (Word Spelled)

variable {d : CommandDef} {cmd : RigctldCommand} {token : List Char} {args : List (List Char)}

/-- The tokens that name a command. -/
def CommandDef.names (d : CommandDef) : List (List Char) :=
  [d.short.toList, d.long.toList, '\\' :: d.short.toList, '\\' :: d.long.toList]

/-- The command is one that `d` describes. -/
structure CommandDef.Describes (d : CommandDef) (cmd : RigctldCommand) : Prop where
  short : cmd.shortCmd = d.short
  long : cmd.longCmd = d.long
  isSet : cmd.isSet = d.isSet
  minArgs : d.minArgs ≤ cmd.args.length
  maxArgs : cmd.args.length ≤ d.maxArgs
  /-- What can be a VFO label is one. -/
  vfo : ∀ label, (cmd.vfoArg = some label → d.acceptsVfoArg ∧ label ∈ vfoLabels) ∧
    (cmd.vfoArg = none → cmd.args.head? = some label → ¬ (d.acceptsVfoArg ∧ label ∈ vfoLabels))

/-! ## The table -/

theorem commandTable_short : ∀ d ∈ commandDefs, commandTable.get? d.short = some d := by
  decide +kernel

theorem commandTable_long : ∀ d ∈ commandDefs, commandTable.get? d.long = some d := by
  decide +kernel

theorem commandTable_items : ∀ item ∈ commandTable.items,
    item.2 ∈ commandDefs ∧ (item.1 = item.2.short ∨ item.1 = item.2.long) := by decide +kernel

/-- A short name with a backslash is the long name behind it. -/
theorem short_backslash : ∀ d ∈ commandDefs, d.short.toList.head? = some '\\' →
    d.short.toList = '\\' :: d.long.toList := by decide +kernel

theorem long_bare : ∀ d ∈ commandDefs, d.long.toList.head? ≠ some '\\' := by decide +kernel

theorem get?_iff {key : String} :
    commandTable.get? key = some d ↔ d ∈ commandDefs ∧ (key = d.short ∨ key = d.long) := by
  constructor
  · intro h
    exact commandTable_items (key, d) (Dict.mem_items.mpr h)
  · rintro ⟨hd, rfl | rfl⟩
    · exact commandTable_short d hd
    · exact commandTable_long d hd

theorem lookupKey_backslash (name : List Char) : lookupKey ('\\' :: name) = String.ofList name := by
  rw [lookupKey, if_pos List.head?_cons, List.tail_cons]

theorem lookupKey_bare (h : token.head? ≠ some '\\') : lookupKey token = String.ofList token := by
  rw [lookupKey, if_neg h]

theorem lookup_iff :
    commandTable.get? (lookupKey token) = some d ↔ d ∈ commandDefs ∧ token ∈ d.names := by
  rw [get?_iff]
  refine and_congr_right fun hd => ?_
  by_cases hbackslash : token.head? = some '\\'
  · obtain ⟨name, rfl⟩ := List.head?_eq_some_iff.mp hbackslash
    rw [lookupKey_backslash]
    have hkey (key : String) : String.ofList name = key ↔ name = key.toList := by
      rw [← String.toList_inj, String.toList_ofList]
    rw [hkey, hkey]
    constructor
    · rintro (rfl | rfl)
      · simp [CommandDef.names]
      · simp [CommandDef.names]
    · intro hname
      simp only [CommandDef.names, List.mem_cons, List.cons.injEq, true_and, List.not_mem_nil,
        or_false] at hname
      rcases hname with hshort | hlong | hname
      · have hhead : d.short.toList.head? = some '\\' := by rw [← hshort]; rfl
        rw [short_backslash d hd hhead] at hshort
        exact .inr (List.cons.inj hshort).2
      · have hhead : d.long.toList.head? = some '\\' := by rw [← hlong]; rfl
        exact absurd hhead (long_bare d hd)
      · exact hname
  · rw [lookupKey_bare hbackslash]
    have hkey (key : String) : String.ofList token = key ↔ token = key.toList := by
      rw [← String.toList_inj, String.toList_ofList]
    rw [hkey, hkey]
    constructor
    · rintro (rfl | rfl)
      · simp [CommandDef.names]
      · simp [CommandDef.names]
    · intro hname
      simp only [CommandDef.names, List.mem_cons, List.not_mem_nil, or_false] at hname
      rcases hname with hname | hname | rfl | rfl
      · exact .inl hname
      · exact .inr hname
      · exact absurd rfl hbackslash
      · exact absurd rfl hbackslash

/-! ## Lines -/

theorem split_strip (text : List Char) : split (strip text) = split text := by
  rw [split, strip, Words.words_rdropWhile, Words.words_dropWhile]
  rfl

/-- The carriage returns that are stripped first are white space anyway. -/
theorem split_rstrip (line : List UInt8) :
    split (decodeAscii (line.rdropWhile fun b => b = 13)) = split (decodeAscii line) := by
  have hline : line.rdropWhile (fun b => b = 13) ++ line.rtakeWhile (fun b => b = 13) = line := by
    rw [List.rdropWhile, List.rtakeWhile, ← List.reverse_append,
      List.takeWhile_append_dropWhile, List.reverse_reverse]
  have hreturns : ∀ ch ∈ decodeAscii (line.rtakeWhile fun b => b = 13), isSpace ch := by
    intro ch hch
    obtain ⟨b, hb, rfl⟩ := List.mem_map.mp hch
    have hvalue := List.mem_rtakeWhile_imp hb
    rw [decide_eq_true_eq] at hvalue
    rw [hvalue]
    decide
  obtain ⟨ws, h⟩ := Words.exists_spelled isSpace
    (decodeAscii (line.rdropWhile fun b => b = 13))
  have happend := h.append hreturns
  rw [decodeAscii, decodeAscii, ← List.map_append, hline] at happend
  exact h.words.trans happend.words.symm

/-- The label and the arguments that are taken apart, and what they were. -/
theorem stripVfo_iff {vfoArg : Option (List Char)} {words : List (List Char)} :
    stripVfo d words = (vfoArg, args) ↔ words = vfoArg.toList ++ args ∧
      ∀ label, (vfoArg = some label → d.acceptsVfoArg ∧ label ∈ vfoLabels) ∧
        (vfoArg = none → args.head? = some label → ¬ (d.acceptsVfoArg ∧ label ∈ vfoLabels)) := by
  constructor
  · intro h
    cases words with
    | nil =>
        cases h
        simp
    | cons first rest =>
        rw [stripVfo] at h
        split at h
        · rename_i hlabel
          cases h
          refine ⟨rfl, fun label => ⟨fun hsome => ?_, fun hnone => by cases hnone⟩⟩
          cases hsome
          exact hlabel
        · rename_i hlabel
          cases h
          refine ⟨rfl, fun label => ⟨fun hsome => (by cases hsome), fun _ hhead => ?_⟩⟩
          cases hhead
          exact hlabel
  · intro h
    obtain ⟨hwords, hvfo⟩ := h
    subst hwords
    cases vfoArg with
    | some label => exact if_pos ((hvfo label).1 rfl)
    | none =>
        cases args with
        | nil => rfl
        | cons first rest => exact if_neg ((hvfo first).2 rfl rfl)

/-- A command is parsed from its words. -/
theorem parseLine_words (line : List UInt8) :
    parseLine line = .ok cmd ↔ ∃ d ∈ commandDefs, ∃ name ∈ d.names, d.Describes cmd ∧
      split (decodeAscii line) = name :: (cmd.vfoArg.toList ++ cmd.args) := by
  simp only [parseLine, split_strip, split_rstrip]
  constructor
  · intro h
    split at h
    · cases h
    · rename_i token words hwords
      split at h
      · cases h
      · rename_i d hd
        obtain ⟨hd, hname⟩ := lookup_iff.mp hd
        generalize hvfo : stripVfo d words = stripped at h
        obtain ⟨vfoArg, args⟩ := stripped
        obtain ⟨rfl, hlabel⟩ := stripVfo_iff.mp hvfo
        simp only at h
        split at h
        · cases h
        · rename_i hmin
          split at h
          · cases h
          · rename_i hmax
            cases h
            exact ⟨d, hd, token, hname, ⟨rfl, rfl, rfl, not_lt.mp hmin, not_lt.mp hmax, hlabel⟩,
              hwords⟩
  · rintro ⟨d, hd, name, hname, hcmd, hwords⟩
    have hvfo := stripVfo_iff.mpr ⟨rfl, hcmd.vfo⟩
    rw [hwords]
    simp only [lookup_iff.mpr ⟨hd, hname⟩, hvfo]
    rw [if_neg (not_lt.mpr hcmd.minArgs), if_neg (not_lt.mpr hcmd.maxArgs)]
    obtain ⟨short, long, args, isSet, vfoArg⟩ := cmd
    cases hcmd.short
    cases hcmd.long
    cases hcmd.isSet
    rfl

/-- `parse_line` accepts a line as a command exactly when the line spells it. -/
theorem parseLine_iff (line : List UInt8) (cmd : RigctldCommand) :
    parseLine line = .ok cmd ↔ ∃ d ∈ commandDefs, ∃ name ∈ d.names, d.Describes cmd ∧
      Spelled isSpace (name :: (cmd.vfoArg.toList ++ cmd.args)) (decodeAscii line) := by
  simp only [Words.spelled_iff]
  exact parseLine_words line

end Rigplane.Rigctld
