import Rigplane.StatePipeline.FieldPath

/-!
# Parsing a field path

`FieldPath.parse` splits a string at its dots and reads the parts by their number and by the first
one: the third part of a receiver path is a family or a slot marker.

`parts` is the list of parts that `__str__` joins.  `parse` accepts exactly the lists `parts path`,
which is why a string has one reading and a path one spelling.
-/

namespace Rigplane.StatePipeline

/-- A `ValueError`.  Where it quotes a value, the text is followed by a colon and the value's
`repr`. -/
inductive ParseError where
  | plain (text : String)
  | quoting (text value : String)
deriving DecidableEq

/-- `value.split(".")`. -/
def splitDots (value : String) : List String := (value.toList.splitOn '.').map String.ofList

/-- `_validate_token`. -/
def validateToken (value label : String) : Except ParseError Token :=
  if h : IsToken value then .ok ⟨value, h⟩
  else if value = "" then .error (.plain (label ++ " must not be empty"))
  else .error (.quoting (label ++ " must use lowercase snake-case tokens") value)

namespace FieldFamily

/-- The members of the enumeration. -/
def members : List FieldFamily := [.freqMode, .vfo, .operatorToggles, .operatorControls, .meters,
  .txState, .slowState, .display, .connection, .health]

/-- No family is spelled like a slot marker. -/
theorem value_ne_marker (family : FieldFamily) : family.value ≠ "slot" ∧
    family.value ≠ VfoSlot.active.value ∧ family.value ≠ VfoSlot.unselected.value := by
  cases family <;> decide

theorem isToken (family : FieldFamily) : IsToken family.value := by
  cases family <;> decide

end FieldFamily

/-- `_validate_family`. -/
def validateFamily (value : String) : Except ParseError FieldFamily :=
  match validateToken value "family" with
  | .error error => .error error
  | .ok _ =>
      match FieldFamily.members.find? (·.value = value) with
      | some family => .ok family
      | none => .error (.quoting "unknown field family" value)

/-- The receiver id of `__post_init__`. -/
def validateReceiverId : Option String → Except ParseError (Option Token)
  | none => .ok none
  | some value => (validateToken value "receiver_id").map some

namespace FieldPath

/-- The constructor on strings.  Its callers check the family before the constructor checks the
rest. -/
def construct (scope : FieldScope) (receiverId : Option String) (slot : Option VfoSlot)
    (family name : String) : Except ParseError FieldPath := do
  let family ← validateFamily family
  let name ← validateToken name "name"
  let receiverId ← validateReceiverId receiverId
  match build scope family name receiverId slot with
  | .ok path => .ok path
  | .error text => .error (.plain text)

/-- `vfo_slot` on strings. -/
def constructVfoSlot (receiverId slot family name : String) : Except ParseError FieldPath :=
  if slot = VfoSlot.a.value then construct .receiver (some receiverId) (some .a) family name
  else if slot = VfoSlot.b.value then construct .receiver (some receiverId) (some .b) family name
  else .error (.quoting "VFO slot must be A or B" slot)

/-- `_parse_receiver`, of the parts behind the scope. -/
def parseReceiver (raw : String) : List String → Except ParseError FieldPath
  | receiver :: marker :: part :: rest =>
      if marker = "slot" then
        match rest with
        | [family, name] => constructVfoSlot receiver part family name
        | _ => .error (.quoting "receiver slot path must have 6 parts" raw)
      else if marker = VfoSlot.active.value then
        match rest with
        | [name] => construct .receiver (some receiver) (some .active) part name
        | _ => .error (.quoting "receiver relative path must have 5 parts" raw)
      else if marker = VfoSlot.unselected.value then
        match rest with
        | [name] => construct .receiver (some receiver) (some .unselected) part name
        | _ => .error (.quoting "receiver relative path must have 5 parts" raw)
      else
        match rest with
        | [] => construct .receiver (some receiver) none marker part
        | _ => .error (.quoting "receiver field path must have 4 parts" raw)
  | _ => .error (.quoting "receiver field path is too short" raw)

/-- `_parse_scope_controls`, of the parts behind the scope. -/
def parseScopeControls (raw target : String) (rest : List String) : Except ParseError FieldPath :=
  if target = "receiver" then
    match rest with
    | [receiver, family, name] => construct .scopeControls (some receiver) none family name
    | _ => .error (.quoting "receiver scope_controls path must have 5 parts" raw)
  else if target = FieldScope.global.value then
    match rest with
    | [family, name] => construct .scopeControls none none family name
    | _ => .error (.quoting "global scope_controls path must have 4 parts" raw)
  else .error (.quoting "unknown scope_controls target" target)

/-- A path of three parts. -/
def parseFlat (scope : FieldScope) (raw first : String) : List String → Except ParseError FieldPath
  | [name] => construct scope none none first name
  | _ => .error (.quoting (scope.value ++ " field path must have 3 parts") raw)

/-- `parse`, of the parts of the string. -/
def parseParts (raw : String) : List String → Except ParseError FieldPath
  | scope :: first :: second :: rest =>
      if scope = FieldScope.receiver.value then parseReceiver raw (first :: second :: rest)
      else if scope = FieldScope.global.value then parseFlat .global raw first (second :: rest)
      else if scope = FieldScope.scopeControls.value then
        parseScopeControls raw first (second :: rest)
      else if scope = FieldScope.connection.value then
        parseFlat .connection raw first (second :: rest)
      else if scope = FieldScope.health.value then parseFlat .health raw first (second :: rest)
      else .error (.quoting "unknown field path scope" scope)
  | _ => .error (.quoting "field path is too short" raw)

def parse (value : String) : Except ParseError FieldPath := parseParts value (splitDots value)

/-- The parts that `__str__` joins. -/
def parts (path : FieldPath) : List String :=
  let tail := [path.family.value, path.name.text]
  match path.scope, path.receiverId with
  | .receiver, receiverId =>
      let rx := (receiverId.map Token.text).getD ""
      match path.slot with
      | some .active => "receiver" :: rx :: "active" :: tail
      | some .unselected => "receiver" :: rx :: "unselected" :: tail
      | some .a => "receiver" :: rx :: "slot" :: "A" :: tail
      | some .b => "receiver" :: rx :: "slot" :: "B" :: tail
      | none => "receiver" :: rx :: tail
  | .scopeControls, none => "scope_controls" :: "global" :: tail
  | .scopeControls, some rx => "scope_controls" :: "receiver" :: rx.text :: tail
  | scope, _ => scope.value :: tail

/-! ## The checks of the constructor -/

theorem validateToken_eq_ok {value label : String} {token : Token} :
    validateToken value label = .ok token ↔ token.text = value := by
  rw [validateToken]
  constructor
  · intro h
    split at h
    · cases h
      rfl
    · split at h <;> cases h
  · rintro rfl
    rw [dif_pos token.isToken]

theorem validateFamily_eq_ok {value : String} {family : FieldFamily} :
    validateFamily value = .ok family ↔ family.value = value := by
  rw [validateFamily]
  constructor
  · intro h
    split at h
    · cases h
    · split at h
      · rename_i found hfound
        cases h
        simpa using List.find?_some hfound
      · cases h
  · rintro rfl
    have htoken : validateToken family.value "family" = .ok ⟨family.value, family.isToken⟩ :=
      validateToken_eq_ok.mpr rfl
    have hfound : FieldFamily.members.find? (·.value = family.value) = some family := by
      cases family <;> rfl
    rw [htoken, hfound]

theorem validateReceiverId_eq_ok {value : Option String} {receiverId : Option Token} :
    validateReceiverId value = .ok receiverId ↔ receiverId.map Token.text = value := by
  cases value with
  | none =>
      rw [validateReceiverId, Option.map_eq_none_iff, Except.ok.injEq]
      exact eq_comm
  | some value =>
      rw [validateReceiverId, Option.map_eq_some_iff]
      constructor
      · intro h
        cases hvalid : validateToken value "receiver_id" with
        | error error =>
            rw [hvalid] at h
            cases h
        | ok token =>
            rw [hvalid] at h
            cases h
            exact ⟨token, rfl, validateToken_eq_ok.mp hvalid⟩
      · rintro ⟨token, rfl, htoken⟩
        rw [validateToken_eq_ok.mpr htoken]
        rfl

/-- A path is given by its parts. -/
theorem build_self (path : FieldPath) :
    build path.scope path.family path.name path.receiverId path.slot = .ok path := by
  rw [build]
  split
  · rfl
  · rename_i text htext
    rw [path.checked] at htext
    cases htext

theorem construct_eq_ok {scope : FieldScope} {receiverId : Option String} {slot : Option VfoSlot}
    {family name : String} {path : FieldPath} :
    construct scope receiverId slot family name = .ok path ↔
      path.scope = scope ∧ path.receiverId.map Token.text = receiverId ∧ path.slot = slot ∧
        path.family.value = family ∧ path.name.text = name := by
  constructor
  · intro h
    cases hfamily : validateFamily family with
    | error error =>
        simp only [construct, hfamily] at h
        cases h
    | ok family =>
        cases hname : validateToken name "name" with
        | error error =>
            simp only [construct, hfamily, hname] at h
            cases h
        | ok name =>
            cases hreceiver : validateReceiverId receiverId with
            | error error =>
                simp only [construct, hfamily, hname, hreceiver] at h
                cases h
            | ok receiverId =>
                cases hbuild : build scope family name receiverId slot with
                | error text =>
                    simp only [construct, hfamily, hname, hreceiver, bind, Except.bind, hbuild] at h
                    cases h
                | ok built =>
                    simp only [construct, hfamily, hname, hreceiver, bind, Except.bind, hbuild] at h
                    cases h
                    obtain ⟨rfl, rfl, rfl, rfl, rfl⟩ := build_eq_ok hbuild
                    exact ⟨rfl, validateReceiverId_eq_ok.mp hreceiver, rfl,
                      validateFamily_eq_ok.mp hfamily, validateToken_eq_ok.mp hname⟩
  · rintro ⟨rfl, hreceiver, rfl, hfamily, hname⟩
    simp only [construct, validateFamily_eq_ok.mpr hfamily, validateToken_eq_ok.mpr hname,
      validateReceiverId_eq_ok.mpr hreceiver, bind, Except.bind, build_self]

/-! ## The parts -/

/-- The receiver of a path that must have one. -/
theorem receiverId_of_receiver {path : FieldPath} (h : path.scope = .receiver) :
    ∃ rx, path.receiverId = some rx := by
  cases hreceiver : path.receiverId with
  | some rx => exact ⟨rx, rfl⟩
  | none =>
      have hchecked := path.checked
      rw [pathError, if_pos ⟨h, hreceiver⟩] at hchecked
      cases hchecked

/-- A path of three parts has neither receiver nor slot. -/
theorem bare_of_flat {path : FieldPath}
    (h : path.scope = .global ∨ path.scope = .connection ∨ path.scope = .health) :
    path.receiverId = none ∧ path.slot = none := by
  have hchecked := path.checked
  have hscope : path.scope ≠ .receiver := by
    rcases h with h | h | h <;> simp [h]
  rw [pathError, if_neg fun hand => hscope hand.1] at hchecked
  by_contra hbare
  rw [if_pos ⟨h, not_and_or.mp hbare⟩] at hchecked
  cases hchecked

/-- Nor does a scope-control path have a slot. -/
theorem slot_of_scopeControls {path : FieldPath} (h : path.scope = .scopeControls) :
    path.slot = none := by
  have hchecked := path.checked
  by_contra hslot
  rw [pathError, if_neg (by simp [h]), if_neg (by simp [h]), if_pos ⟨h, hslot⟩] at hchecked
  cases hchecked

/-! ## Reading the parts -/

theorem parts_of_flat {path : FieldPath}
    (h : path.scope = .global ∨ path.scope = .connection ∨ path.scope = .health) :
    path.parts = [path.scope.value, path.family.value, path.name.text] := by
  rcases h with h | h | h <;> simp only [parts, h]

theorem parseFlat_eq_ok {scope : FieldScope} (raw : String) {first : String} {rest : List String}
    {path : FieldPath} (h : scope = .global ∨ scope = .connection ∨ scope = .health) :
    parseFlat scope raw first rest = .ok path ↔
      path.scope = scope ∧ scope.value :: first :: rest = path.parts := by
  have hparts (hscope : path.scope = scope) :
      path.parts = [scope.value, path.family.value, path.name.text] := by
    subst hscope
    exact parts_of_flat h
  constructor
  · intro hparse
    rw [parseFlat.eq_def] at hparse
    split at hparse
    · obtain ⟨hscope, -, -, hfamily, hname⟩ := construct_eq_ok.mp hparse
      rw [hparts hscope, hfamily, hname]
      exact ⟨hscope, rfl⟩
    · cases hparse
  · rintro ⟨hscope, hlist⟩
    rw [hparts hscope] at hlist
    cases hlist
    obtain ⟨hreceiver, hslot⟩ : path.receiverId = none ∧ path.slot = none :=
      bare_of_flat (by rw [hscope]; exact h)
    exact construct_eq_ok.mpr ⟨hscope, by rw [hreceiver]; rfl, hslot, rfl, rfl⟩

theorem parseScopeControls_eq_ok (raw : String) {target : String} {rest : List String}
    {path : FieldPath} :
    parseScopeControls raw target rest = .ok path ↔
      path.scope = .scopeControls ∧
        FieldScope.scopeControls.value :: target :: rest = path.parts := by
  constructor
  · intro hparse
    rw [parseScopeControls.eq_def] at hparse
    split at hparse
    · rename_i htarget
      split at hparse
      · obtain ⟨hscope, hreceiver, -, hfamily, hname⟩ := construct_eq_ok.mp hparse
        obtain ⟨rx, hrx, rfl⟩ := Option.map_eq_some_iff.mp hreceiver
        refine ⟨hscope, ?_⟩
        simp only [parts, hscope, hrx, hfamily, hname, htarget]
        rfl
      · cases hparse
    · split at hparse
      · rename_i htarget
        split at hparse
        · obtain ⟨hscope, hreceiver, -, hfamily, hname⟩ := construct_eq_ok.mp hparse
          refine ⟨hscope, ?_⟩
          simp only [parts, hscope, Option.map_eq_none_iff.mp hreceiver, hfamily, hname, htarget]
          rfl
        · cases hparse
      · cases hparse
  · rintro ⟨hscope, hlist⟩
    have hslot := slot_of_scopeControls hscope
    cases hreceiver : path.receiverId with
    | none =>
        simp only [parts, hscope, hreceiver] at hlist
        cases hlist
        exact construct_eq_ok.mpr ⟨hscope, by rw [hreceiver]; rfl, hslot, rfl, rfl⟩
    | some rx =>
        simp only [parts, hscope, hreceiver] at hlist
        cases hlist
        exact construct_eq_ok.mpr ⟨hscope, by rw [hreceiver]; rfl, hslot, rfl, rfl⟩

/-- How a receiver path spells its slot. -/
def slotParts : Option VfoSlot → List String
  | none => []
  | some .active => ["active"]
  | some .unselected => ["unselected"]
  | some .a => ["slot", "A"]
  | some .b => ["slot", "B"]

theorem parts_of_construct {receiver family name : String} {slot : Option VfoSlot}
    {path : FieldPath} (h : construct .receiver (some receiver) slot family name = .ok path) :
    path.scope = .receiver ∧
      path.parts = FieldScope.receiver.value :: receiver :: (slotParts slot ++ [family, name]) := by
  obtain ⟨hscope, hreceiver, rfl, rfl, rfl⟩ := construct_eq_ok.mp h
  refine ⟨hscope, ?_⟩
  rcases hslot : path.slot with _ | _ | _ | _ | _ <;>
    simp only [parts, hscope, hreceiver, hslot] <;> rfl

theorem parseReceiver_eq_ok (raw : String) {rest : List String} {path : FieldPath} :
    parseReceiver raw rest = .ok path ↔
      path.scope = .receiver ∧ FieldScope.receiver.value :: rest = path.parts := by
  constructor
  · intro hparse
    have hread {receiver family name : String} {slot : Option VfoSlot}
        (h : construct .receiver (some receiver) slot family name = .ok path)
        (hrest : rest = receiver :: (slotParts slot ++ [family, name])) :
        path.scope = .receiver ∧ FieldScope.receiver.value :: rest = path.parts := by
      obtain ⟨hscope, hparts⟩ := parts_of_construct h
      exact ⟨hscope, by rw [hparts, hrest]⟩
    rw [parseReceiver.eq_def] at hparse
    split at hparse
    · split at hparse
      · rename_i hmarker
        split at hparse
        · rw [constructVfoSlot] at hparse
          split at hparse
          · rename_i hslot
            exact hread hparse (by rw [hmarker, hslot]; rfl)
          · split at hparse
            · rename_i hslot
              exact hread hparse (by rw [hmarker, hslot]; rfl)
            · cases hparse
        · cases hparse
      · split at hparse
        · rename_i hmarker
          split at hparse
          · exact hread hparse (by rw [hmarker]; rfl)
          · cases hparse
        · split at hparse
          · rename_i hmarker
            split at hparse
            · exact hread hparse (by rw [hmarker]; rfl)
            · cases hparse
          · split at hparse
            · exact hread hparse rfl
            · cases hparse
    · cases hparse
  · rintro ⟨hscope, hlist⟩
    obtain ⟨rx, hreceiver⟩ := receiverId_of_receiver hscope
    obtain ⟨hslot, hactive, hunselected⟩ := path.family.value_ne_marker
    have hok {slot : Option VfoSlot} (h : path.slot = slot) :
        construct .receiver (some rx.text) slot path.family.value path.name.text = .ok path :=
      construct_eq_ok.mpr ⟨hscope, by rw [hreceiver]; rfl, h, rfl, rfl⟩
    obtain ⟨-, hparts⟩ := parts_of_construct (hok rfl)
    rw [hparts, List.cons.injEq] at hlist
    obtain ⟨-, rfl⟩ := hlist
    rcases hpath : path.slot with _ | _ | _ | _ | _
    · rw [slotParts, List.nil_append, parseReceiver, if_neg hslot, if_neg hactive,
        if_neg hunselected]
      exact hok hpath
    · exact hok hpath
    · exact hok hpath
    · exact hok hpath
    · exact hok hpath

theorem parseParts_eq_ok {raw : String} {list : List String} {path : FieldPath} :
    parseParts raw list = .ok path ↔ list = path.parts := by
  constructor
  · intro hparse
    rw [parseParts.eq_def] at hparse
    split at hparse
    · split at hparse
      · rename_i hscope
        rw [hscope]
        exact ((parseReceiver_eq_ok raw).mp hparse).2
      · split at hparse
        · rename_i hscope
          rw [hscope]
          exact ((parseFlat_eq_ok raw (.inl rfl)).mp hparse).2
        · split at hparse
          · rename_i hscope
            rw [hscope]
            exact ((parseScopeControls_eq_ok raw).mp hparse).2
          · split at hparse
            · rename_i hscope
              rw [hscope]
              exact ((parseFlat_eq_ok raw (.inr (.inl rfl))).mp hparse).2
            · split at hparse
              · rename_i hscope
                rw [hscope]
                exact ((parseFlat_eq_ok raw (.inr (.inr rfl))).mp hparse).2
              · cases hparse
    · cases hparse
  · rintro rfl
    cases hscope : path.scope with
    | receiver =>
        obtain ⟨rx, hreceiver⟩ := receiverId_of_receiver hscope
        obtain ⟨-, hparts⟩ := parts_of_construct (construct_eq_ok.mpr
          ⟨hscope, (by rw [hreceiver]; rfl : _ = some rx.text), rfl, rfl, rfl⟩)
        have hread := (parseReceiver_eq_ok raw).mpr ⟨hscope, hparts.symm⟩
        rw [hparts]
        rcases hslot : path.slot with _ | _ | _ | _ | _ <;> rw [hslot] at hread <;> exact hread
    | scopeControls =>
        cases hreceiver : path.receiverId with
        | none =>
            have hparts : path.parts = [FieldScope.scopeControls.value, FieldScope.global.value,
                path.family.value, path.name.text] := by
              simp only [parts, hscope, hreceiver]
              rfl
            rw [hparts]
            exact (parseScopeControls_eq_ok raw).mpr ⟨hscope, hparts.symm⟩
        | some rx =>
            have hparts : path.parts = [FieldScope.scopeControls.value, "receiver", rx.text,
                path.family.value, path.name.text] := by
              simp only [parts, hscope, hreceiver]
              rfl
            rw [hparts]
            exact (parseScopeControls_eq_ok raw).mpr ⟨hscope, hparts.symm⟩
    | global =>
        have hparts := parts_of_flat (.inl hscope)
        rw [hscope] at hparts
        rw [hparts]
        exact (parseFlat_eq_ok raw (.inl rfl)).mpr ⟨hscope, hparts.symm⟩
    | connection =>
        have hparts := parts_of_flat (.inr (.inl hscope))
        rw [hscope] at hparts
        rw [hparts]
        exact (parseFlat_eq_ok raw (.inr (.inl rfl))).mpr ⟨hscope, hparts.symm⟩
    | health =>
        have hparts := parts_of_flat (.inr (.inr hscope))
        rw [hscope] at hparts
        rw [hparts]
        exact (parseFlat_eq_ok raw (.inr (.inr rfl))).mpr ⟨hscope, hparts.symm⟩

/-! ## The round trip -/

/-- No part contains a dot. -/
theorem dotless (path : FieldPath) : ∀ part ∈ path.parts, '.' ∉ part.toList := by
  have htoken {value : String} (h : IsToken value) : '.' ∉ value.toList := fun hmem =>
    absurd (h.2 '.' hmem) (by decide)
  have hname := htoken path.name.isToken
  have hfamily := htoken path.family.isToken
  cases hscope : path.scope with
  | receiver =>
      obtain ⟨rx, hreceiver⟩ := receiverId_of_receiver hscope
      have hrx := htoken rx.isToken
      rcases hslot : path.slot with _ | _ | _ | _ | _ <;>
        simp [parts, hscope, hreceiver, hslot, hrx, hfamily, hname]
  | scopeControls =>
      cases hreceiver : path.receiverId with
      | none => simp [parts, hscope, hreceiver, hfamily, hname]
      | some rx => simp [parts, hscope, hreceiver, htoken rx.isToken, hfamily, hname]
  | global => simp [parts, hscope, FieldScope.value, hfamily, hname]
  | connection => simp [parts, hscope, FieldScope.value, hfamily, hname]
  | health => simp [parts, hscope, FieldScope.value, hfamily, hname]

theorem parts_ne_nil (path : FieldPath) : path.parts ≠ [] := by
  rw [parts]
  repeat' split
  all_goals exact List.cons_ne_nil _ _

theorem str_eq (path : FieldPath) : path.str = ".".intercalate path.parts := by
  cases hscope : path.scope with
  | receiver =>
      rcases hslot : path.slot with _ | _ | _ | _ | _ <;> simp only [str, parts, hscope, hslot]
  | scopeControls => cases hreceiver : path.receiverId <;> simp only [str, parts, hscope, hreceiver]
  | global => simp only [str, parts, hscope]
  | connection => simp only [str, parts, hscope]
  | health => simp only [str, parts, hscope]

theorem splitDots_eq_iff {value : String} {path : FieldPath} :
    splitDots value = path.parts ↔ path.str = value := by
  have hback (list : List String) : (list.map String.toList).map String.ofList = list := by
    rw [List.map_map]
    exact List.map_id'' (fun part => String.ofList_toList) list
  have hdot : ".".toList = ['.'] := rfl
  rw [str_eq, ← String.toList_inj, String.toList_intercalate, hdot, splitDots]
  constructor
  · intro h
    rw [← h, List.map_map]
    have hid : (String.toList ∘ String.ofList) = id := by
      funext list
      exact String.toList_ofList
    rw [hid, List.map_id]
    exact List.intercalate_splitOn '.'
  · intro h
    rw [← h, List.splitOn_intercalate '.' ?_ ?_, hback]
    · intro list hlist
      obtain ⟨part, hpart, rfl⟩ := List.mem_map.mp hlist
      exact dotless path part hpart
    · exact mt List.map_eq_nil_iff.mp path.parts_ne_nil

/-- A string is read as a path exactly if it is the canonical string of that path, and paths have
canonical strings of their own. -/
theorem parse_iff_str :
    (∀ value path, parse value = .ok path ↔ path.str = value) ∧ Function.Injective str := by
  have hiff (value : String) (path : FieldPath) : parse value = .ok path ↔ path.str = value :=
    parseParts_eq_ok.trans splitDots_eq_iff
  refine ⟨hiff, fun path path' h => ?_⟩
  have hread := (hiff path'.str path).mpr h
  rw [(hiff path'.str path').mpr rfl] at hread
  exact (Except.ok.inj hread).symm

end FieldPath

end Rigplane.StatePipeline
