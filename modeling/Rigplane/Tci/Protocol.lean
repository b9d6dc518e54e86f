import Rigplane.Lib.Stripped
import Rigplane.Lib.Words

/-!
# The TCI command grammar

`parse_line` and `format_command` of `tci/protocol.py`.  A line is cut at its semicolons, and an
empty piece or one without a name is skipped.  `parseLine_formatLine` reads back what is formatted,
and `parseLine_canonical` says in which form a command comes out of a line, so a line may be
replaced by what is formatted from it (`parseLine_again`).
-/

namespace Rigplane.Tci

/-- The white space of `str.strip`. -/
def isSpace (ch : Char) : Bool :=
  (9 ≤ ch.toNat ∧ ch.toNat ≤ 13) ∨ (28 ≤ ch.toNat ∧ ch.toNat ≤ 32) ∨ ch.toNat = 0x85 ∨
    ch.toNat = 0xA0 ∨ ch.toNat = 0x1680 ∨ (0x2000 ≤ ch.toNat ∧ ch.toNat ≤ 0x200A) ∨
    ch.toNat = 0x2028 ∨ ch.toNat = 0x2029 ∨ ch.toNat = 0x202F ∨ ch.toNat = 0x205F ∨
    ch.toNat = 0x3000

/-- `str.strip`. -/
def strip (text : List Char) : List Char := Stripping.strip isSpace text

/-- `str.lower` on ASCII. -/
def lower (text : List Char) : List Char := text.map Char.toLower

structure TciCommand where
  name : List Char
  args : List (List Char) := []
deriving DecidableEq

/-- The command of a piece of a line. -/
def parseSegment (segment : List Char) : Option TciCommand :=
  let segment := strip segment
  let name := lower (strip (segment.takeWhile (· ≠ ':')))
  if segment = [] ∨ name = [] then none
  else
    match segment.dropWhile (· ≠ ':') with
    | [] => some { name }
    | _ :: rest => some { name, args := ((rest.splitOn ',').map strip).filter (· ≠ []) }

/-- `parse_line`. -/
def parseLine (line : List Char) : List TciCommand := (line.splitOn ';').filterMap parseSegment

/-- `format_command`. -/
def formatCommand (name : List Char) (args : List (List Char)) : List Char :=
  let body := [','].intercalate args
  let canonical := lower (strip name)
  if body ≠ [] then canonical ++ ':' :: body ++ [';'] else canonical ++ [';']

/-- Commands that share a line. -/
def formatLine (commands : List TciCommand) : List Char :=
  commands.flatMap fun cmd => formatCommand cmd.name cmd.args

/-- The form in which a command comes out of a line. -/
structure TciCommand.Canonical (cmd : TciCommand) : Prop where
  name_ne_nil : cmd.name ≠ []
  name_stripped : Stripping.Stripped isSpace cmd.name
  name_lower : lower cmd.name = cmd.name
  name_solid : ':' ∉ cmd.name ∧ ';' ∉ cmd.name
  args : ∀ arg ∈ cmd.args, arg ≠ [] ∧ Stripping.Stripped isSpace arg ∧ ',' ∉ arg ∧ ';' ∉ arg

variable {cmd : TciCommand} {commands : List TciCommand} {line : List Char}

/-! ## Reading back -/

/-- A command without its semicolon. -/
def TciCommand.text (cmd : TciCommand) : List Char :=
  if cmd.args = [] then cmd.name else cmd.name ++ ':' :: [','].intercalate cmd.args

theorem intercalate_ne_nil {args : List (List Char)} (hne : args ≠ [])
    (hargs : ∀ arg ∈ args, arg ≠ []) : [','].intercalate args ≠ [] := by
  cases args with
  | nil => exact absurd rfl hne
  | cons arg rest =>
      have harg := hargs arg List.mem_cons_self
      cases rest with
      | nil => simpa using harg
      | cons => simp [List.intercalate_cons_cons, harg]

namespace TciCommand.Canonical

theorem body_ne_nil (h : cmd.Canonical) (hargs : cmd.args ≠ []) :
    [','].intercalate cmd.args ≠ [] :=
  intercalate_ne_nil hargs fun arg harg => (h.args arg harg).1

theorem formatted (h : cmd.Canonical) : formatCommand cmd.name cmd.args = cmd.text ++ [';'] := by
  rw [formatCommand, strip, h.name_stripped.strip_eq, h.name_lower, text]
  by_cases hargs : cmd.args = []
  · rw [hargs]
    rfl
  · rw [if_neg hargs, if_pos (h.body_ne_nil hargs)]

theorem text_stripped (h : cmd.Canonical) : Stripping.Stripped isSpace cmd.text := by
  rw [text]
  split
  · exact h.name_stripped
  · rename_i hargs
    have hbody : Stripping.Stripped isSpace ([','].intercalate cmd.args) :=
      .intercalate ',' fun arg harg => ⟨(h.args arg harg).1, (h.args arg harg).2.1⟩
    have htext := h.name_stripped.append hbody h.name_ne_nil (h.body_ne_nil hargs) [':']
    rwa [List.append_assoc] at htext

theorem text_ne_nil (h : cmd.Canonical) : cmd.text ≠ [] := by
  rw [text]
  split
  · exact h.name_ne_nil
  · simp [h.name_ne_nil]

theorem parsed (h : cmd.Canonical) : parseSegment cmd.text = some cmd := by
  have hname : ∀ ch ∈ cmd.name, decide (ch ≠ ':') = true := fun ch hch =>
    decide_eq_true fun hcolon => h.name_solid.1 (hcolon ▸ hch)
  have hcanonical : lower (strip cmd.name) = cmd.name := by
    rw [strip, h.name_stripped.strip_eq, h.name_lower]
  have htext : strip cmd.text = cmd.text := h.text_stripped.strip_eq
  by_cases hargs : cmd.args = []
  · have hwhole : cmd.text = cmd.name := if_pos hargs
    have htake : cmd.name.takeWhile (· ≠ ':') = cmd.name := List.takeWhile_eq_self_iff.mpr hname
    have hdrop : cmd.name.dropWhile (· ≠ ':') = [] := List.dropWhile_eq_nil_iff.mpr hname
    rw [hwhole] at htext
    simp only [parseSegment, hwhole, htext, htake, hdrop, h.name_lower]
    rw [if_neg (by simp [h.name_ne_nil]), ← hargs]
  · have hwhole : cmd.text = cmd.name ++ ':' :: [','].intercalate cmd.args := if_neg hargs
    have htake : cmd.text.takeWhile (· ≠ ':') = cmd.name := by
      rw [hwhole, List.takeWhile_append_of_pos hname, List.takeWhile_cons_of_neg (by simp),
        List.append_nil]
    have hdrop : cmd.text.dropWhile (· ≠ ':') = ':' :: [','].intercalate cmd.args := by
      rw [hwhole, List.dropWhile_append_of_pos hname, List.dropWhile_cons_of_neg (by simp)]
    have hsplit : ([','].intercalate cmd.args).splitOn ',' = cmd.args :=
      List.splitOn_intercalate ',' (fun arg harg => (h.args arg harg).2.2.1) hargs
    have hstrip : cmd.args.map strip = cmd.args :=
      (List.map_congr_left fun arg harg => (h.args arg harg).2.1.strip_eq).trans (List.map_id _)
    have hfilter : cmd.args.filter (· ≠ []) = cmd.args :=
      List.filter_eq_self.mpr fun arg harg => decide_eq_true (h.args arg harg).1
    simp only [parseSegment, htext, htake, hdrop, hcanonical, hsplit, hstrip, hfilter]
    rw [if_neg (by simp [h.name_ne_nil, h.text_ne_nil])]

theorem text_solid (h : cmd.Canonical) : ';' ∉ cmd.text := by
  rw [text]
  split
  · exact h.name_solid.2
  · intro hin
    rcases List.mem_append.mp hin with hin | hin
    · exact h.name_solid.2 hin
    · rcases List.mem_cons.mp hin with hin | hin
      · cases hin
      · obtain hin | ⟨arg, harg, hin⟩ := Words.mem_intercalate hin
        · cases hin
        · exact (h.args arg harg).2.2.2 hin

end TciCommand.Canonical

/-- What is formatted is read back, whatever stands after it. -/
theorem parseLine_append (h : cmd.Canonical) (rest : List Char) :
    parseLine (formatCommand cmd.name cmd.args ++ rest) = cmd :: parseLine rest := by
  rw [parseLine, h.formatted, List.append_assoc, List.singleton_append,
    List.splitOn_append_cons_self_of_not_mem h.text_solid, List.filterMap_cons, h.parsed]
  rfl

/-- A line of canonical commands is read as these commands. -/
theorem parseLine_formatLine (h : ∀ cmd ∈ commands, cmd.Canonical) :
    parseLine (formatLine commands) = commands := by
  induction commands with
  | nil => rfl
  | cons cmd commands ih =>
      obtain ⟨hcmd, hrest⟩ := List.forall_mem_cons.mp h
      rw [formatLine, List.flatMap_cons, parseLine_append hcmd]
      exact congrArg _ (ih hrest)

/-! ## What is read -/

theorem mem_of_mem_strip {text : List Char} {ch : Char} (h : ch ∈ strip text) : ch ∈ text :=
  (List.dropWhile_sublist _).mem ((List.rdropWhile_prefix _ _).mem h)

/-- A piece of a text has no separator, and no other characters than the text. -/
theorem mem_splitOn {sep : Char} {text piece : List Char} (h : piece ∈ text.splitOn sep) :
    sep ∉ piece ∧ ∀ ch ∈ piece, ch ∈ text := by
  induction text generalizing piece with
  | nil =>
      rw [List.splitOn_nil, List.mem_singleton] at h
      simp [h]
  | cons ch text ih =>
      have hlater {piece : List Char} (h : piece ∈ text.splitOn sep) :
          sep ∉ piece ∧ ∀ x ∈ piece, x ∈ ch :: text :=
        ⟨(ih h).1, fun x hx => List.mem_cons_of_mem _ ((ih h).2 x hx)⟩
      rw [List.splitOn_cons_eq_if_modifyHead] at h
      split at h
      · rcases List.mem_cons.mp h with rfl | h
        · simp
        · exact hlater h
      · rename_i hne
        obtain ⟨first, rest, hsplit⟩ := List.exists_cons_of_ne_nil (List.splitOn_ne_nil sep text)
        rw [hsplit] at h hlater
        rcases List.mem_cons.mp h with rfl | h
        · obtain ⟨hfirst, hchars⟩ := hlater List.mem_cons_self
          refine ⟨fun hin => ?_, List.forall_mem_cons.mpr ⟨List.mem_cons_self, hchars⟩⟩
          rcases List.mem_cons.mp hin with rfl | hin
          · exact hne (beq_self_eq_true _)
          · exact hfirst hin
        · exact hlater (List.mem_cons_of_mem _ h)

/-- What `str.lower` does to an ASCII character. -/
theorem toLower_spec {ch : Char} (hascii : ch.toNat < 128) :
    isSpace ch.toLower = isSpace ch ∧ ch.toLower.toLower = ch.toLower ∧
      (ch.toLower = ':' → ch = ':') ∧ (ch.toLower = ';' → ch = ';') := by
  have hall : ∀ n < 128, isSpace (Char.ofNat n).toLower = isSpace (Char.ofNat n) ∧
      (Char.ofNat n).toLower.toLower = (Char.ofNat n).toLower ∧
      ((Char.ofNat n).toLower = ':' → Char.ofNat n = ':') ∧
      ((Char.ofNat n).toLower = ';' → Char.ofNat n = ';') := by decide +kernel
  have h := hall ch.toNat hascii
  rwa [Char.ofNat_toNat] at h

theorem lower_stripped {text : List Char} (hascii : ∀ ch ∈ text, ch.toNat < 128)
    (h : Stripping.Stripped isSpace text) : Stripping.Stripped isSpace (lower text) where
  head := by
    intro ch hch
    rw [lower, List.head?_map] at hch
    obtain ⟨x, hx, rfl⟩ := Option.map_eq_some_iff.mp hch
    rw [(toLower_spec (hascii x (List.mem_of_mem_head? hx))).1]
    exact h.head x hx
  last := by
    intro ch hch
    rw [lower, List.getLast?_map] at hch
    obtain ⟨x, hx, rfl⟩ := Option.map_eq_some_iff.mp hch
    rw [(toLower_spec (hascii x (List.mem_of_mem_getLast? hx))).1]
    exact h.last x hx

theorem lower_lower {text : List Char} (hascii : ∀ ch ∈ text, ch.toNat < 128) :
    lower (lower text) = lower text := by
  rw [lower, lower, List.map_map]
  exact List.map_congr_left fun ch hch => (toLower_spec (hascii ch hch)).2.1

/-- The arguments that are cut out of a piece. -/
theorem args_canonical {rest : List Char} (hsolid : ';' ∉ rest) :
    ∀ arg ∈ ((rest.splitOn ',').map strip).filter (· ≠ []),
      arg ≠ [] ∧ Stripping.Stripped isSpace arg ∧ ',' ∉ arg ∧ ';' ∉ arg := by
  intro arg harg
  obtain ⟨harg, hne⟩ := List.mem_filter.mp harg
  obtain ⟨piece, hpiece, rfl⟩ := List.mem_map.mp harg
  obtain ⟨hcomma, hchars⟩ := mem_splitOn hpiece
  exact ⟨of_decide_eq_true hne, Stripping.stripped_strip piece,
    fun hin => hcomma (mem_of_mem_strip hin),
    fun hin => hsolid (hchars _ (mem_of_mem_strip hin))⟩

/-- The name that stands before the colon. -/
theorem canonical_of_name {text : List Char} {args : List (List Char)}
    (hascii : ∀ ch ∈ text, ch.toNat < 128) (hcolon : ':' ∉ text) (hsolid : ';' ∉ text)
    (hne : lower (strip text) ≠ [])
    (hargs : ∀ arg ∈ args, arg ≠ [] ∧ Stripping.Stripped isSpace arg ∧ ',' ∉ arg ∧ ';' ∉ arg) :
    TciCommand.Canonical { name := lower (strip text), args := args } := by
  have hstrip (ch : Char) (hch : ch ∈ strip text) : ch.toNat < 128 :=
    hascii ch (mem_of_mem_strip hch)
  refine ⟨hne, lower_stripped hstrip (Stripping.stripped_strip _), lower_lower hstrip,
    ⟨fun hin => ?_, fun hin => ?_⟩, hargs⟩
  · obtain ⟨ch, hch, hlower⟩ := List.mem_map.mp hin
    cases (toLower_spec (hstrip ch hch)).2.2.1 hlower
    exact hcolon (mem_of_mem_strip hch)
  · obtain ⟨ch, hch, hlower⟩ := List.mem_map.mp hin
    cases (toLower_spec (hstrip ch hch)).2.2.2 hlower
    exact hsolid (mem_of_mem_strip hch)

theorem parseSegment_canonical {segment : List Char} (hascii : ∀ ch ∈ segment, ch.toNat < 128)
    (hsolid : ';' ∉ segment) (h : parseSegment segment = some cmd) : cmd.Canonical := by
  have hname (ch : Char) (hch : ch ∈ (strip segment).takeWhile (· ≠ ':')) : ch ∈ segment :=
    mem_of_mem_strip ((List.takeWhile_sublist _).mem hch)
  have hcolon : ':' ∉ (strip segment).takeWhile (· ≠ ':') := fun hin => by
    simpa using List.mem_takeWhile_imp hin
  have hascii' (ch : Char) (hch : ch ∈ (strip segment).takeWhile (· ≠ ':')) : ch.toNat < 128 :=
    hascii ch (hname ch hch)
  have hsolid' : ';' ∉ (strip segment).takeWhile (· ≠ ':') := fun hin => hsolid (hname _ hin)
  rw [parseSegment] at h
  split at h
  · cases h
  · rename_i hne
    push Not at hne
    split at h
    · cases h
      exact canonical_of_name hascii' hcolon hsolid' hne.2 nofun
    · rename_i rest hdrop
      cases h
      refine canonical_of_name hascii' hcolon hsolid' hne.2
        (args_canonical fun hin => hsolid (mem_of_mem_strip ?_))
      refine (List.dropWhile_sublist fun ch => decide (ch ≠ ':')).mem ?_
      rw [hdrop]
      exact List.mem_cons_of_mem _ hin

/-- Whatever is read from an ASCII line is canonical. -/
theorem parseLine_canonical (hascii : ∀ ch ∈ line, ch.toNat < 128) :
    ∀ cmd ∈ parseLine line, cmd.Canonical := by
  intro cmd hcmd
  obtain ⟨segment, hsegment, h⟩ := List.mem_filterMap.mp hcmd
  obtain ⟨hsolid, hchars⟩ := mem_splitOn hsegment
  exact parseSegment_canonical (fun ch hch => hascii ch (hchars ch hch)) hsolid h

/-- A line is read as canonical commands, and what is formatted from them is read as the same. -/
theorem parseLine_again (hascii : ∀ ch ∈ line, ch.toNat < 128) :
    (∀ cmd ∈ parseLine line, cmd.Canonical) ∧
      parseLine (formatLine (parseLine line)) = parseLine line :=
  ⟨parseLine_canonical hascii, parseLine_formatLine (parseLine_canonical hascii)⟩

/-- A line with blanks, an empty argument, an empty piece and one without a name. -/
def padded : List Char := " VFO : 0, ,14074000 ;; :1; Ready".toList

theorem parseLine_again_padded :
    parseLine padded = [{ name := "vfo".toList, args := ["0".toList, "14074000".toList] },
      { name := "ready".toList }] ∧
    (∀ cmd ∈ parseLine padded, cmd.Canonical) ∧
      parseLine (formatLine (parseLine padded)) = parseLine padded := by
  have hall : padded.all (fun ch => ch.toNat < 128) = true := by decide +kernel
  refine ⟨by decide +kernel, parseLine_again fun ch hch => ?_⟩
  exact of_decide_eq_true (List.all_eq_true.mp hall ch hch)

end Rigplane.Tci
