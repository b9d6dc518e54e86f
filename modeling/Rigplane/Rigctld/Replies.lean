import Rigplane.Rigctld.Protocol

/-!
# The lines of a reply

In the normal protocol a reply is a number of lines, `replyLines`: one status, or the values of a
query, with a status behind them for `get_lock_mode` alone.  `formatNormal_lines` is the reply line
by line.
-/

namespace Rigplane.Rigctld

open Words (closed)

variable {cmd : RigctldCommand} {resp : RigctldResponse} {out : List UInt8} {text : List Char}

/-- The bytes of a text that is ASCII. -/
def asciiBytes (text : List Char) : List UInt8 := text.map fun ch => UInt8.ofNat ch.toNat

/-- The lines of a reply in the normal protocol. -/
def replyLines (cmd : RigctldCommand) (resp : RigctldResponse) : List (List Char) :=
  if resp.error ≠ 0 then [statusLine resp.error]
  else if cmd.isSet then [statusLine 0]
  else if resp.values = [] then []
  else if cmd.longCmd = "get_lock_mode" then resp.values ++ [statusLine 0]
  else resp.values

theorem encodeAscii_eq_some : encodeAscii text = some out ↔
    (∀ ch ∈ text, ch.toNat < 128) ∧ out = asciiBytes text := by
  have hall : (text.all fun ch => ch.toNat < 128) = true ↔ ∀ ch ∈ text, ch.toNat < 128 := by
    simp only [List.all_eq_true, decide_eq_true_eq]
  rw [encodeAscii, ← hall]
  split
  · rename_i h
    rw [Option.some.injEq]
    exact ⟨fun hout => ⟨h, hout.symm⟩, fun hout => hout.2.symm⟩
  · rename_i h
    exact ⟨fun hout => (by cases hout), fun hout => absurd hout.1 h⟩

theorem asciiBytes_closed (lines : List (List Char)) :
    asciiBytes (closed '\n' lines) = closed 10 (lines.map asciiBytes) := Words.map_closed _ _ lines

/-! ## Status lines -/

/-- What a decimal number is written with. -/
theorem toString_chars (code : Int) : ∀ ch ∈ (toString code).toList, ch = '-' ∨ ch.isDigit := by
  have hdigits (n : Nat) : ∀ ch ∈ n.repr.toList, ch.isDigit := fun ch hch => by
    rw [Nat.toList_repr] at hch
    exact Nat.isDigit_of_mem_toDigits (by decide) (by decide) hch
  intro ch hch
  cases code with
  | ofNat n => exact .inr (hdigits n ch hch)
  | negSucc n =>
      have htext : (toString (Int.negSucc n)).toList = '-' :: (n + 1).repr.toList := by
        show ("-" ++ (n + 1).repr).toList = _
        rw [String.toList_append]
        rfl
      rw [htext] at hch
      rcases List.mem_cons.mp hch with rfl | hch
      · exact .inl rfl
      · exact .inr (hdigits _ ch hch)

theorem isDigit_toNat {ch : Char} (h : ch.isDigit) : 48 ≤ ch.toNat ∧ ch.toNat ≤ 57 := by
  simp only [Char.isDigit, Bool.and_eq_true, decide_eq_true_eq] at h
  exact h

theorem status_chars : ∀ ch ∈ "RPRT ".toList, ch.toNat < 128 ∧ ch ≠ '\n' := by
  have hall : ("RPRT ".toList.all fun ch => ch.toNat < 128 ∧ ch ≠ '\n') = true := by decide
  simpa only [List.all_eq_true, decide_eq_true_eq] using hall

theorem statusLine_chars (code : Int) : ∀ ch ∈ statusLine code, ch.toNat < 128 ∧ ch ≠ '\n' := by
  intro ch hch
  rcases List.mem_append.mp hch with hch | hch
  · exact status_chars ch hch
  · rcases toString_chars code ch hch with rfl | hdigit
    · decide
    · have hrange := isDigit_toNat hdigit
      refine ⟨by omega, ?_⟩
      rintro rfl
      exact absurd hrange.1 (by decide)

theorem formatError_eq (code : Int) :
    formatError code = some (closed 10 [asciiBytes (statusLine code)]) := by
  have hclosed : statusLine code ++ ['\n'] = closed '\n' [statusLine code] := by simp
  refine encodeAscii_eq_some.mpr ⟨fun ch hch => ?_, ?_⟩
  · rcases List.mem_append.mp hch with hch | hch
    · exact (statusLine_chars code ch hch).1
    · rw [List.mem_singleton.mp hch]
      decide
  · rw [hclosed, asciiBytes_closed]
    rfl

/-! ## Replies -/

/-- Each line of the reply is ASCII, and the reply is its lines. -/
theorem formatNormal_lines (h : formatNormal cmd resp = some out) :
    (∀ line ∈ replyLines cmd resp, ∀ ch ∈ line, ch.toNat < 128) ∧
      out = closed 10 ((replyLines cmd resp).map asciiBytes) := by
  have hstatus (code : Int) : ∀ line ∈ [statusLine code], ∀ ch ∈ line, ch.toNat < 128 := by
    intro line hline ch hch
    rw [List.mem_singleton.mp hline] at hch
    exact (statusLine_chars code ch hch).1
  rw [formatNormal] at h
  rw [replyLines]
  split at h
  · rename_i herror
    rw [formatError_eq, Option.some.injEq] at h
    rw [if_pos herror]
    exact ⟨hstatus _, h.symm⟩
  rename_i herror
  rw [if_neg herror]
  split at h
  · rename_i hset
    rw [formatError_eq, Option.some.injEq] at h
    rw [if_pos hset]
    exact ⟨hstatus 0, h.symm⟩
  rename_i hset
  rw [if_neg hset]
  split at h
  · rename_i hvalues
    cases h
    rw [if_pos hvalues]
    exact ⟨fun _ hline => (by cases hline), rfl⟩
  rename_i hvalues
  rw [if_neg hvalues]
  obtain ⟨bytes, hbytes, h⟩ := Option.bind_eq_some_iff.mp h
  rw [joinLines, Words.intercalate_append hvalues, encodeAscii_eq_some, asciiBytes_closed] at hbytes
  obtain ⟨hascii, rfl⟩ := hbytes
  have hlines : ∀ line ∈ resp.values, ∀ ch ∈ line, ch.toNat < 128 := fun line hline ch hch =>
    hascii ch (List.mem_flatMap.mpr ⟨line, hline, List.mem_append_left _ hch⟩)
  split at h
  · rename_i hlock
    rw [formatError_eq, Option.map_some, Option.some.injEq] at h
    rw [if_pos hlock, List.map_append, Words.closed_append]
    refine ⟨fun line hline => ?_, h.symm⟩
    rcases List.mem_append.mp hline with hline | hline
    · exact hlines line hline
    · exact hstatus 0 line hline
  · rename_i hlock
    cases h
    rw [if_neg hlock]
    exact ⟨hlines, rfl⟩

/-- The values of a response that can be told apart: none of them breaks its line. -/
def RigctldResponse.Unbroken (resp : RigctldResponse) : Prop := ∀ value ∈ resp.values, '\n' ∉ value

instance (resp : RigctldResponse) : Decidable resp.Unbroken :=
  inferInstanceAs (Decidable (∀ _ ∈ _, _))

theorem replyLines_unbroken (h : resp.Unbroken) : ∀ line ∈ replyLines cmd resp, '\n' ∉ line := by
  have hstatus (code : Int) : '\n' ∉ statusLine code := fun hch =>
    (statusLine_chars code _ hch).2 rfl
  intro line hline
  rw [replyLines] at hline
  split at hline
  · rw [List.mem_singleton.mp hline]
    exact hstatus _
  split at hline
  · rw [List.mem_singleton.mp hline]
    exact hstatus 0
  split at hline
  · cases hline
  split at hline
  · rcases List.mem_append.mp hline with hline | hline
    · exact h line hline
    · rw [List.mem_singleton.mp hline]
      exact hstatus 0
  · exact h line hline

theorem asciiBytes_newline (hascii : ∀ ch ∈ text, ch.toNat < 128) :
    10 ∈ asciiBytes text ↔ '\n' ∈ text := by
  constructor
  · intro h
    obtain ⟨ch, hch, hvalue⟩ := List.mem_map.mp h
    have hnat : ch.toNat = 10 := by
      have hvalue := congrArg UInt8.toNat hvalue
      have hsmall := hascii ch hch
      rw [UInt8.toNat_ofNat'] at hvalue
      have hten : (10 : UInt8).toNat = 10 := rfl
      omega
    have hchar : ch = '\n' := Char.toNat_inj.mp hnat
    exact hchar ▸ hch
  · intro h
    exact List.mem_map.mpr ⟨'\n', h, rfl⟩

/-- The bytes of an ASCII text are that text to `decode`. -/
theorem decodeAscii_asciiBytes (hascii : ∀ ch ∈ text, ch.toNat < 128) :
    decodeAscii (asciiBytes text) = text := by
  rw [decodeAscii, asciiBytes, List.map_map]
  refine (List.map_congr_left fun ch hch => ?_).trans (List.map_id text)
  have hsmall := hascii ch hch
  have hvalue : (UInt8.ofNat ch.toNat).toNat = ch.toNat := by
    rw [UInt8.toNat_ofNat']
    omega
  have hlt : UInt8.ofNat ch.toNat < 128 := by
    rw [UInt8.lt_iff_toNat_lt, hvalue]
    exact hsmall
  show (if UInt8.ofNat ch.toNat < 128 then _ else _) = ch
  rw [if_pos hlt, hvalue, Char.ofNat_toNat]

theorem asciiBytes_inj {other : List Char} (htext : ∀ ch ∈ text, ch.toNat < 128)
    (hother : ∀ ch ∈ other, ch.toNat < 128) (h : asciiBytes text = asciiBytes other) :
    text = other := by
  rw [← decodeAscii_asciiBytes htext, h, decodeAscii_asciiBytes hother]

theorem asciiBytes_prefix {start : List Char} (htext : ∀ ch ∈ text, ch.toNat < 128)
    (hstart : ∀ ch ∈ start, ch.toNat < 128) (h : asciiBytes start <+: asciiBytes text) :
    start <+: text := by
  rw [List.prefix_iff_eq_take, asciiBytes, List.length_map, asciiBytes, ← List.map_take] at h
  rw [List.prefix_iff_eq_take]
  exact asciiBytes_inj hstart (fun ch hch => htext ch (List.mem_of_mem_take hch)) h

end Rigplane.Rigctld
