import AgentVoice.Config.YamlTree
import AgentVoice.Foundations.Bytes

/-!
# The pre-scan of the backup policy

`AppConfig::validate_backup_policy_yaml_events` reads the events of the configuration before the
document is deserialised, with a stack of the open collections. A mapping's frame holds the key whose
value comes next, and its role: the root, the value of the root's key `backup`, or any other.

`scan_node` is the invariant of the stack, by induction over the tree: from a frame that waits for a
value, the events of a node take the key off that frame and leave everything below it alone, and what
they note depends on the frame's role and key only.
-/

namespace AgentVoice.Config

open AgentVoice.Foundations

/-- `config YAML event reader: invalid_structure`. -/
def invalidStructure : String := "config YAML event reader: invalid_structure"

/-- `config YAML event reader: unsupported_alias_or_tag`. -/
def unsupportedAliasOrTag : String := "config YAML event reader: unsupported_alias_or_tag"

/-- `backup_error`. -/
def backupError (field code : String) : String := "backup." ++ field ++ ": " ++ code

/-- The fields of the policy that the scan looks at. -/
inductive PolicyField where
  | retentionDays
  | maxAgeHours
  deriving DecidableEq

/-- `backup_policy_yaml_error`. -/
def backupPolicyYamlError : PolicyField → String
  | .retentionDays => backupError "retention_days" "invalid_retention"
  | .maxAgeHours => backupError "max_age_hours" "invalid_max_age"

/-- The field that a key names. -/
def policyField (key : List UInt8) : Option PolicyField :=
  if key = utf8 "retention_days" then some .retentionDays
  else if key = utf8 "max_age_hours" then some .maxAgeHours
  else none

/-! ### The literal of a field -/

/-- `u8::is_ascii_digit`. -/
def isAsciiDigit (b : UInt8) : Bool := 48 ≤ b.toNat && b.toNat ≤ 57

/-- The number that decimal digits stand for. -/
def decimalValue (digits : List UInt8) : ℕ := digits.foldl (fun n b => 10 * n + (b.toNat - 48)) 0

/-- `parse::<u64>` of a text, which may have one `+` in front of its digits. -/
def parseU64 (text : List UInt8) : Option ℕ :=
  let digits := if text.head? = some 43 then text.tail else text
  if digits ≠ [] ∧ digits.all isAsciiDigit ∧ decimalValue digits < 2 ^ 64 then some (decimalValue digits)
  else none

/-- The literal is signed, or a number that no `u64` holds. The digits are ASCII, so `from_utf8` takes
them as they are. -/
def rejectedLiteral (value : List UInt8) : Bool :=
  let digits := value.filter (· != 95)
  value.head?.any (fun b => b == 43 || b == 45) ||
    (value.all (fun b => isAsciiDigit b || b == 95) && !value.isEmpty && (parseU64 digits).isNone)

/-! ### The stack machine -/

/-- `Role`. -/
inductive Role where
  | root | backup | other
  deriving DecidableEq

/-- `Frame`: an open collection. -/
structure Frame where
  mapping : Bool
  pending : Option (List UInt8)
  role : Role

/-- The variables of the loop; the innermost frame comes first. -/
structure Scan where
  frames : List Frame
  documents : ℕ
  started : Bool
  finished : Bool
  policyError : Option String

/-- The variables before the first event. -/
def Scan.new : Scan := ⟨[], 0, false, false, none⟩

/-- `parent.pending.take()`. -/
def Frame.taken (frame : Frame) : Frame := { frame with pending := none }

/-- What a plain scalar in the place of a value is noted for. -/
def noteScalar (role : Role) (key value : List UInt8) (style : YamlScalarStyle)
    (policyError : Option String) : Option String :=
  match policyField key with
  | some field =>
    if role = .backup ∧ style = .plain ∧ rejectedLiteral value then some (backupPolicyYamlError field)
    else policyError
  | none => policyError

/-- The role of a mapping that opens under `frames`. -/
def Scan.mappingRole (scan : Scan) : Role :=
  match scan.frames with
  | parent :: _ =>
    if parent.mapping ∧ parent.role = .root ∧ parent.pending = some (utf8 "backup") then .backup else .other
  | [] => if scan.documents = 1 then .root else .other

/-- The key in front of a collection is taken, where there is a frame around it. -/
def takePending : List Frame → List Frame
  | parent :: frames => parent.taken :: frames
  | [] => []

/-- A collection opens. -/
def Scan.push (scan : Scan) (frame : Frame) : Scan :=
  { scan with frames := frame :: takePending scan.frames }

/-- The body of the loop. -/
def Scan.step (scan : Scan) : YamlEvent → Except String Scan
  | .streamStart => if scan.started then .error invalidStructure else .ok { scan with started := true }
  | .streamEnd =>
    if scan.frames ≠ [] ∨ scan.documents ≠ 1 then .error invalidStructure
    else .ok { scan with finished := true }
  | .documentStart =>
    if scan.documents + 1 ≠ 1 then .error invalidStructure
    else .ok { scan with documents := scan.documents + 1 }
  | .documentEnd => if scan.frames ≠ [] then .error invalidStructure else .ok scan
  | .alias => .error unsupportedAliasOrTag
  | .mappingStart _ _ tagged =>
    if tagged then .error unsupportedAliasOrTag
    else .ok (scan.push { mapping := true, pending := none, role := scan.mappingRole })
  | .sequenceStart _ _ tagged =>
    if tagged then .error unsupportedAliasOrTag
    else .ok (scan.push { mapping := false, pending := none, role := .other })
  | .mappingEnd | .sequenceEnd =>
    match scan.frames with
    | _ :: frames => .ok { scan with frames }
    | [] => .error invalidStructure
  | .scalar value style _ tagged =>
    if tagged then .error unsupportedAliasOrTag
    else
      match scan.frames with
      | [] => .error invalidStructure
      | frame :: frames =>
        if ¬frame.mapping then .ok scan
        else
          match frame.pending with
          | some key =>
            .ok { scan with
              frames := frame.taken :: frames
              policyError := noteScalar frame.role key value style scan.policyError }
          | none => .ok { scan with frames := { frame with pending := some value } :: frames }

/-- The loop `while let Some(event) = reader.next()?`. -/
def scanEvents (reader : YamlEventReader) (scan : Scan) : Except String Scan :=
  match _h : reader.next with
  | .error e => .error e
  | .ok (none, _) => .ok scan
  | .ok (some event, reader') => do
    let scan ← scan.step event
    scanEvents reader' scan
termination_by reader.delivered.length
decreasing_by exact YamlEventReader.length_of_next _h

/-- `validate_backup_policy_yaml_events`, on what the parser delivers for the text. -/
def validateBackupPolicyYamlEvents (delivered : List RawEvent) : Except String Unit := do
  let scan ← scanEvents ⟨delivered, false⟩ .new
  if ¬scan.finished then throw invalidStructure
  match scan.policyError with
  | some error => throw error
  | none => return ()

/-! ### The loop, event by event -/

theorem scanEvents_cons {raw : RawEvent} {event : YamlEvent} {streamEnd : Bool}
    (hevent : convertEvent raw = .ok (event, streamEnd)) (delivered : List RawEvent) (scan : Scan) :
    scanEvents ⟨raw :: delivered, false⟩ scan =
      (scan.step event >>= fun scan => scanEvents ⟨delivered, streamEnd⟩ scan) := by
  have hnext := YamlEventReader.next_cons hevent delivered
  rw [scanEvents]
  split
  · rename_i h
    cases h.symm.trans hnext
  · rename_i h
    cases h.symm.trans hnext
  · rename_i h
    cases h.symm.trans hnext
    rfl

theorem scanEvents_finished (delivered : List RawEvent) (scan : Scan) :
    scanEvents ⟨delivered, true⟩ scan = .ok scan := by
  have hnext := YamlEventReader.next_finished delivered
  rw [scanEvents]
  split
  · rename_i h
    cases h.symm.trans hnext
  · rfl
  · rename_i h
    cases h.symm.trans hnext

@[simp] theorem convertEvent_scalar (s : YamlScalar) :
    convertEvent s.event = .ok (.scalar s.value s.style s.anchor.isSome s.tag.isSome, false) := by
  obtain ⟨value, style, anchor, tag⟩ := s
  cases style <;> rfl

/-! ### What the events of a tree do -/

/-- Neither an alias nor a tag is among the nodes. -/
def unmarked (nodes : List YamlNode) : Bool := nodes.all fun n => !n.isAlias && n.tag.isNone

theorem unmarked_cons (n : YamlNode) (nodes : List YamlNode) :
    unmarked (n :: nodes) = ((!n.isAlias && n.tag.isNone) && unmarked nodes) := List.all_cons

theorem unmarked_append (nodes nodes' : List YamlNode) :
    unmarked (nodes ++ nodes') = (unmarked nodes && unmarked nodes') := List.all_append

theorem unmarked_iff {nodes : List YamlNode} :
    unmarked nodes ↔ ∀ n ∈ nodes, n.isAlias = false ∧ n.tag = none := by
  simp [unmarked]

/-- What an entry of the backup mapping is noted for. -/
def notePolicy (key : List UInt8) (node : YamlNode) (policyError : Option String) : Option String :=
  match node with
  | .scalar s => noteScalar .backup key s.value s.style policyError
  | _ => policyError

/-- What an entry of the root mapping is noted for. -/
def noteRoot (key : List UInt8) (node : YamlNode) (policyError : Option String) : Option String :=
  match node with
  | .mapping _ settings =>
    if key = utf8 "backup" then
      settings.foldl (fun noted setting => notePolicy setting.1.value setting.2 noted) policyError
    else policyError
  | _ => policyError

/-- What an entry is noted for, by the role of its mapping. -/
def noteEntry : Role → List UInt8 → YamlNode → Option String → Option String
  | .root => noteRoot
  | .backup => notePolicy
  | .other => fun _ _ policyError => policyError

/-- What the entries of a mapping are noted for. -/
def noteEntries (role : Role) (entries : List (YamlScalar × YamlNode)) (policyError : Option String) :
    Option String :=
  entries.foldl (fun noted entry => noteEntry role entry.1.value entry.2 noted) policyError

/-- What a node is noted for in the place that its frame has for it. -/
def Frame.note (frame : Frame) (node : YamlNode) (policyError : Option String) : Option String :=
  match frame.pending with
  | some key => noteEntry frame.role key node policyError
  | none => policyError

/-- The frame waits for a value: it is a mapping's with a key, or a sequence's without. -/
def Frame.AwaitsValue (frame : Frame) : Prop := frame.mapping = frame.pending.isSome

/-- What is noted for a nested mapping is noted for its entries, under the role it opens with. -/
theorem noteEntries_mappingRole {frame : Frame} {frames : List Frame} {documents : ℕ}
    {started finished : Bool} {policyError : Option String} (head : RawCollection)
    (entries : List (YamlScalar × YamlNode)) (hawaits : frame.AwaitsValue) :
    noteEntries (Scan.mappingRole ⟨frame :: frames, documents, started, finished, policyError⟩) entries
        policyError =
      frame.note (.mapping head entries) policyError := by
  have hother : noteEntries .other entries policyError = policyError := by
    induction entries with
    | nil => rfl
    | cons entry entries ih => exact ih
  obtain ⟨mapping, pending, role⟩ := frame
  cases pending with
  | none => simpa [Scan.mappingRole, Frame.note] using hother
  | some key =>
    have hmapping : mapping = true := hawaits
    subst hmapping
    cases role with
    | root =>
      by_cases hkey : key = utf8 "backup"
      · simp [Scan.mappingRole, Frame.note, noteEntry, noteRoot, noteEntries, hkey]
      · simpa [Scan.mappingRole, Frame.note, noteEntry, noteRoot, hkey] using hother
    | backup => simpa [Scan.mappingRole, Frame.note, noteEntry, notePolicy] using hother
    | other => simpa [Scan.mappingRole, Frame.note, noteEntry] using hother

theorem note_sequence (frame : Frame) (head : RawCollection) (items : List YamlNode)
    (policyError : Option String) : frame.note (.sequence head items) policyError = policyError := by
  obtain ⟨mapping, pending, role⟩ := frame
  cases pending with
  | none => rfl
  | some key => cases role <;> rfl

theorem note_scalar {frame : Frame} {key : List UInt8} (hpending : frame.pending = some key) (s : YamlScalar)
    (policyError : Option String) :
    frame.note (.scalar s) policyError = noteScalar frame.role key s.value s.style policyError := by
  have hother : ∀ role, role ≠ .backup → noteScalar role key s.value s.style policyError = policyError := by
    intro role hrole
    unfold noteScalar
    cases policyField key with
    | none => rfl
    | some field => exact if_neg fun h => hrole h.1
  rw [Frame.note, hpending]
  cases hrole : frame.role with
  | backup => rfl
  | root => exact (hother .root nofun).symm
  | other => exact (hother .other nofun).symm

section Scanning

variable {documents : ℕ} {started finished : Bool}

/-- What the events of a sequence's items do under the sequence's frame. -/
def ItemsScanned (documents : ℕ) (started finished : Bool) (items : List YamlNode) : Prop :=
  ∀ (rest : List RawEvent) (frames : List Frame) (policyError : Option String),
    scanEvents ⟨itemsEvents items ++ rest, false⟩
        ⟨⟨false, none, .other⟩ :: frames, documents, started, finished, policyError⟩ =
      if unmarked (itemsNodes items) then
        scanEvents ⟨rest, false⟩ ⟨⟨false, none, .other⟩ :: frames, documents, started, finished, policyError⟩
      else .error unsupportedAliasOrTag

/-- What the events of a mapping's entries do under the mapping's frame. -/
def EntriesScanned (documents : ℕ) (started finished : Bool) (entries : List (YamlScalar × YamlNode)) :
    Prop :=
  ∀ (rest : List RawEvent) (role : Role) (frames : List Frame) (policyError : Option String),
    scanEvents ⟨entriesEvents entries ++ rest, false⟩
        ⟨⟨true, none, role⟩ :: frames, documents, started, finished, policyError⟩ =
      if unmarked (entriesNodes entries) then
        scanEvents ⟨rest, false⟩ ⟨⟨true, none, role⟩ :: frames, documents, started, finished,
          noteEntries role entries policyError⟩
      else .error unsupportedAliasOrTag

/-- A sequence is closed on the stack it was opened on. -/
theorem scan_sequence (head : RawCollection) {items : List YamlNode}
    (hitems : ItemsScanned documents started finished items) (rest : List RawEvent) (frames : List Frame)
    (policyError : Option String) :
    scanEvents ⟨(YamlNode.sequence head items).events ++ rest, false⟩
        ⟨frames, documents, started, finished, policyError⟩ =
      if unmarked (YamlNode.sequence head items).nodes then
        scanEvents ⟨rest, false⟩ ⟨takePending frames, documents, started, finished, policyError⟩
      else .error unsupportedAliasOrTag := by
  rw [YamlNode.events, List.cons_append, List.append_assoc,
    scanEvents_cons (rfl : convertEvent (.sequenceStart head) = _), YamlNode.nodes, unmarked_cons]
  cases htag : head.tag with
  | some tag => simp [Scan.step, YamlNode.tag, htag]
  | none =>
    simp only [Scan.step, Scan.push, Option.isSome_none, Bool.false_eq_true, if_false, ok_bind,
      List.singleton_append]
    rw [hitems, scanEvents_cons (rfl : convertEvent .sequenceEnd = _)]
    simp [Scan.step, YamlNode.isAlias, YamlNode.tag, htag]

/-- A mapping is closed on the stack it was opened on. -/
theorem scan_mapping (head : RawCollection) {entries : List (YamlScalar × YamlNode)}
    (hentries : EntriesScanned documents started finished entries) (rest : List RawEvent)
    (frames : List Frame) (policyError : Option String) :
    scanEvents ⟨(YamlNode.mapping head entries).events ++ rest, false⟩
        ⟨frames, documents, started, finished, policyError⟩ =
      if unmarked (YamlNode.mapping head entries).nodes then
        scanEvents ⟨rest, false⟩ ⟨takePending frames, documents, started, finished,
          noteEntries (Scan.mappingRole ⟨frames, documents, started, finished, policyError⟩) entries
            policyError⟩
      else .error unsupportedAliasOrTag := by
  rw [YamlNode.events, List.cons_append, List.append_assoc,
    scanEvents_cons (rfl : convertEvent (.mappingStart head) = _), YamlNode.nodes, unmarked_cons]
  cases htag : head.tag with
  | some tag => simp [Scan.step, YamlNode.tag, htag]
  | none =>
    simp only [Scan.step, Scan.push, Option.isSome_none, Bool.false_eq_true, if_false, ok_bind,
      List.singleton_append]
    rw [hentries, scanEvents_cons (rfl : convertEvent .mappingEnd = _)]
    simp [Scan.step, YamlNode.isAlias, YamlNode.tag, htag]

mutual

/-- **A node leaves the stack as it found it**, but for the key that was pending. -/
theorem scan_node : ∀ (node : YamlNode) (rest : List RawEvent) (frame : Frame) (frames : List Frame)
    (policyError : Option String), frame.AwaitsValue →
    scanEvents ⟨node.events ++ rest, false⟩ ⟨frame :: frames, documents, started, finished, policyError⟩ =
      if unmarked node.nodes then
        scanEvents ⟨rest, false⟩
          ⟨frame.taken :: frames, documents, started, finished, frame.note node policyError⟩
      else .error unsupportedAliasOrTag
  | .scalar s, rest, frame, frames, policyError, hawaits => by
    rw [YamlNode.events, List.singleton_append, scanEvents_cons (convertEvent_scalar s), YamlNode.nodes,
      unmarked_cons]
    cases htag : s.tag with
    | some tag => simp [Scan.step, YamlNode.tag, htag]
    | none =>
      obtain ⟨mapping, pending, role⟩ := frame
      cases pending with
      | none =>
        have hmapping : mapping = false := hawaits
        simp [Scan.step, hmapping, Frame.taken, Frame.note, unmarked, YamlNode.isAlias, YamlNode.tag, htag]
      | some key =>
        have hmapping : mapping = true := hawaits
        rw [note_scalar rfl]
        simp [Scan.step, hmapping, Frame.taken, unmarked, YamlNode.isAlias, YamlNode.tag, htag]
  | .alias anchor, rest, frame, frames, policyError, hawaits => by
    rw [YamlNode.events, List.singleton_append, scanEvents_cons (rfl : convertEvent (.alias anchor) = _)]
    simp [Scan.step, YamlNode.nodes, unmarked, YamlNode.isAlias]
  | .sequence head items, rest, frame, frames, policyError, hawaits => by
    rw [scan_sequence head (scan_items items), note_sequence]
    rfl
  | .mapping head entries, rest, frame, frames, policyError, hawaits => by
    rw [scan_mapping head (scan_entries entries), noteEntries_mappingRole head entries hawaits]
    rfl

theorem scan_items : ∀ items : List YamlNode, ItemsScanned documents started finished items
  | [], rest, frames, policyError => rfl
  | item :: items, rest, frames, policyError => by
    have hitem := scan_node item (itemsEvents items ++ rest) ⟨false, none, .other⟩ frames policyError rfl
    have hitems := scan_items items rest frames policyError
    rw [itemsEvents, itemsNodes, List.append_assoc, hitem, unmarked_append]
    cases unmarked item.nodes with
    | false => rfl
    | true => exact hitems

theorem scan_entries : ∀ entries : List (YamlScalar × YamlNode),
    EntriesScanned documents started finished entries
  | [], rest, role, frames, policyError => rfl
  | (key, value) :: entries, rest, role, frames, policyError => by
    have hvalue := scan_node value (entriesEvents entries ++ rest) ⟨true, some key.value, role⟩ frames
      policyError rfl
    have hentries := scan_entries entries rest role frames (noteEntry role key.value value policyError)
    rw [entriesEvents, entriesNodes, List.cons_append, List.append_assoc,
      scanEvents_cons (convertEvent_scalar key), unmarked_cons, unmarked_append]
    cases htag : key.tag with
    | some tag => simp [Scan.step, YamlNode.tag, htag]
    | none =>
      simp only [Scan.step, Option.isSome_none, Bool.false_eq_true, if_false, not_true_eq_false, ok_bind]
      rw [hvalue]
      cases unmarked value.nodes with
      | false => simp
      | true =>
        simp only [if_true, YamlNode.isAlias, YamlNode.tag, htag]
        exact hentries

end

end Scanning

/-! ### The document -/

/-- What a whole document is noted for. -/
def YamlNode.noted : YamlNode → Option String
  | .mapping _ entries => noteEntries .root entries none
  | _ => none

theorem scan_opening (root : YamlNode) :
    scanEvents ⟨root.stream, false⟩ .new =
      scanEvents ⟨root.events ++ [.documentEnd, .streamEnd], false⟩ ⟨[], 1, true, false, none⟩ := by
  rw [YamlNode.stream, scanEvents_cons (rfl : convertEvent .streamStart = _)]
  simp only [Scan.step, Scan.new, Bool.false_eq_true, if_false, ok_bind]
  rw [scanEvents_cons (rfl : convertEvent .documentStart = _)]
  simp only [Scan.step, Nat.zero_add, ne_eq, not_true_eq_false, if_false, ok_bind]

theorem scan_closing (policyError : Option String) :
    scanEvents ⟨[.documentEnd, .streamEnd], false⟩ ⟨[], 1, true, false, policyError⟩ =
      .ok ⟨[], 1, true, true, policyError⟩ := by
  rw [scanEvents_cons (rfl : convertEvent .documentEnd = _)]
  simp only [Scan.step, ne_eq, not_true_eq_false, if_false, ok_bind]
  rw [scanEvents_cons (rfl : convertEvent .streamEnd = _)]
  simp only [Scan.step, ne_eq, not_true_eq_false, or_self, if_false, ok_bind]
  exact scanEvents_finished _ _

/-- The scan of a document whose root is a collection. -/
theorem scan_stream {root : YamlNode} (hroot : root.isScalar = false) :
    scanEvents ⟨root.stream, false⟩ .new =
      if unmarked root.nodes then .ok ⟨[], 1, true, true, root.noted⟩ else .error unsupportedAliasOrTag := by
  rw [scan_opening]
  cases root with
  | scalar s => cases hroot
  | «alias» anchor =>
    rw [YamlNode.events, List.singleton_append, scanEvents_cons (rfl : convertEvent (.alias anchor) = _)]
    simp [Scan.step, YamlNode.nodes, unmarked, YamlNode.isAlias]
  | sequence head items =>
    rw [scan_sequence head (scan_items items)]
    exact if_congr Iff.rfl (scan_closing none) rfl
  | mapping head entries =>
    rw [scan_mapping head (scan_entries entries)]
    exact if_congr Iff.rfl (scan_closing _) rfl

/-- No scalar is a configuration. -/
theorem scan_scalar (s : YamlScalar) (scan : Scan) :
    scanEvents ⟨(YamlNode.scalar s).stream, false⟩ .new ≠ .ok scan := by
  rw [scan_opening, YamlNode.events, List.singleton_append, scanEvents_cons (convertEvent_scalar s)]
  cases s.tag with
  | some tag => simp [Scan.step]
  | none => simp [Scan.step]

/-- The scan succeeds on the documents of collections without aliases and tags that are noted for
nothing. -/
theorem validate_stream_iff (root : YamlNode) :
    validateBackupPolicyYamlEvents root.stream = .ok () ↔
      root.isScalar = false ∧ unmarked root.nodes ∧ root.noted = none := by
  unfold validateBackupPolicyYamlEvents
  cases hroot : root.isScalar with
  | true =>
    cases root with
    | scalar s =>
      simp only [Bool.true_eq_false, false_and, iff_false]
      intro h
      obtain ⟨scan, hscan, -⟩ := bind_eq_ok_iff.mp h
      exact scan_scalar s scan hscan
    | «alias» | sequence | mapping => cases hroot
  | false =>
    rw [scan_stream hroot]
    cases unmarked root.nodes with
    | false => simp
    | true => cases root.noted <;> simp

/-! ### What a document is noted for -/

/-- Without its underscores, the literal is a number that a `u64` holds. -/
def DenotesU64 (value : List UInt8) : Prop :=
  value.filter (· != 95) ≠ [] ∧ (∀ b ∈ value.filter (· != 95), isAsciiDigit b) ∧
    decimalValue (value.filter (· != 95)) < 2 ^ 64

/-- The literal starts with a sign, or it is made of digits and underscores and denotes no `u64`. -/
def RefusedLiteral (value : List UInt8) : Prop :=
  (∃ sign rest, value = sign :: rest ∧ (sign = 43 ∨ sign = 45)) ∨
    (value ≠ [] ∧ (∀ b ∈ value, isAsciiDigit b ∨ b = 95) ∧ ¬DenotesU64 value)

theorem parseU64_isNone_iff {value : List UInt8} (hvalue : ∀ b ∈ value, isAsciiDigit b ∨ b = 95) :
    (parseU64 (value.filter (· != 95))).isNone ↔ ¬DenotesU64 value := by
  have hdigits : ∀ b ∈ value.filter (· != 95), isAsciiDigit b := by
    intro b hb
    obtain ⟨hmem, hne⟩ := List.mem_filter.mp hb
    exact (hvalue b hmem).resolve_right (by simpa using hne)
  have hplus : (value.filter (· != 95)).head? ≠ some 43 := by
    intro h
    exact absurd (hdigits 43 (List.mem_of_mem_head? h)) (by decide)
  unfold parseU64 DenotesU64
  rw [if_neg hplus]
  simp only [List.all_eq_true]
  split_ifs with h
  · exact ⟨nofun, fun hnot => (hnot h).elim⟩
  · exact ⟨fun _ => h, fun _ => rfl⟩

theorem rejectedLiteral_iff (value : List UInt8) : rejectedLiteral value ↔ RefusedLiteral value := by
  unfold rejectedLiteral RefusedLiteral
  rw [Bool.or_eq_true]
  refine or_congr ?_ ?_
  · cases value with
    | nil => simp
    | cons sign rest => simp
  · by_cases hvalue : ∀ b ∈ value, isAsciiDigit b ∨ b = 95
    · have hall : value.all (fun b => isAsciiDigit b || b == 95) := by simpa using hvalue
      rw [hall, Bool.true_and, Bool.and_eq_true, parseU64_isNone_iff hvalue]
      exact and_congr (by simp) (and_iff_right hvalue).symm
    · have hall : value.all (fun b => isAsciiDigit b || b == 95) = false := by
        simpa using hvalue
      simp [hall, hvalue]

/-- A loop that only ever adds a note leaves none when no entry adds one. -/
theorem foldl_note_eq_none_iff {α β : Type*} {note : Option β → α → Option β} {P : α → Prop}
    (hnote : ∀ noted a, note noted a = none ↔ noted = none ∧ P a) (l : List α) (noted : Option β) :
    l.foldl note noted = none ↔ noted = none ∧ ∀ a ∈ l, P a := by
  induction l generalizing noted with
  | nil => simp
  | cons a l ih => rw [List.foldl_cons, ih, hnote, List.forall_mem_cons, and_assoc]

/-- A setting of the backup mapping with a literal that is refused. -/
def RefusedSetting (key : YamlScalar) (node : YamlNode) : Prop :=
  ∃ s, node = .scalar s ∧ (key.value = utf8 "retention_days" ∨ key.value = utf8 "max_age_hours") ∧
    s.style = .plain ∧ RefusedLiteral s.value

theorem policyField_eq_none_iff (key : List UInt8) :
    policyField key = none ↔ ¬(key = utf8 "retention_days" ∨ key = utf8 "max_age_hours") := by
  unfold policyField
  split_ifs with hretention hage
  · simp [hretention]
  · simp [hage]
  · simp [hretention, hage]

theorem notePolicy_eq_none_iff (key : YamlScalar) (node : YamlNode) (noted : Option String) :
    notePolicy key.value node noted = none ↔ noted = none ∧ ¬RefusedSetting key node := by
  cases node with
  | scalar s =>
    have hrefused : RefusedSetting key (.scalar s) ↔
        (key.value = utf8 "retention_days" ∨ key.value = utf8 "max_age_hours") ∧ s.style = .plain ∧
          rejectedLiteral s.value := by
      simp [RefusedSetting, rejectedLiteral_iff]
    rw [hrefused]
    unfold notePolicy noteScalar
    cases hfield : policyField key.value with
    | none =>
      have hkey := (policyField_eq_none_iff key.value).mp hfield
      simp [hkey]
    | some field =>
      have hkey : key.value = utf8 "retention_days" ∨ key.value = utf8 "max_age_hours" := by
        by_contra hkey
        cases hfield.symm.trans ((policyField_eq_none_iff _).mpr hkey)
      by_cases hnoted : s.style = .plain ∧ rejectedLiteral s.value
      · simp [hkey, hnoted]
      · simp [hkey, hnoted]
  | «alias» | sequence | mapping => simp [notePolicy, RefusedSetting]

theorem noteRoot_eq_none_iff (key : YamlScalar) (node : YamlNode) (noted : Option String) :
    noteRoot key.value node noted = none ↔
      noted = none ∧ (key.value = utf8 "backup" →
        ∀ setting value, node.HasEntry setting value → ¬RefusedSetting setting value) := by
  cases node with
  | mapping head settings =>
    simp only [noteRoot, YamlNode.hasEntry_mapping]
    by_cases hkey : key.value = utf8 "backup"
    · rw [if_pos hkey, foldl_note_eq_none_iff fun noted (setting : YamlScalar × YamlNode) =>
        notePolicy_eq_none_iff setting.1 setting.2 noted]
      simp [hkey]
    · simp [hkey]
  | scalar | «alias» | sequence => simp [noteRoot, YamlNode.HasEntry]

theorem noted_eq_none_iff (root : YamlNode) :
    root.noted = none ↔
      ∀ backup policy, root.HasEntry backup policy → backup.value = utf8 "backup" →
        ∀ setting value, policy.HasEntry setting value → ¬RefusedSetting setting value := by
  cases root with
  | mapping head entries =>
    simp only [YamlNode.noted, noteEntries, noteEntry, YamlNode.hasEntry_mapping]
    rw [foldl_note_eq_none_iff fun noted (entry : YamlScalar × YamlNode) =>
      noteRoot_eq_none_iff entry.1 entry.2 noted]
    simp
  | scalar | «alias» | sequence => simp [YamlNode.noted, YamlNode.HasEntry]

/-- **The pre-scan, on every document.** A document passes exactly when its root is a collection, it has
no alias and no tag, and no setting of a backup mapping at the root has a refused literal. What stands
anywhere else does not matter. -/
theorem validateBackupPolicyYamlEvents_iff (root : YamlNode) :
    validateBackupPolicyYamlEvents root.stream = .ok () ↔
      root.isScalar = false ∧ (∀ n ∈ root.nodes, n.isAlias = false ∧ n.tag = none) ∧
        ∀ backup policy, root.HasEntry backup policy → backup.value = utf8 "backup" →
          ∀ setting value, policy.HasEntry setting value → ¬RefusedSetting setting value := by
  rw [validate_stream_iff, unmarked_iff, noted_eq_none_iff]

/-- `backup: { retention_days: }`. -/
def emptyRetention : YamlNode :=
  .mapping ⟨false, none, none⟩ [(⟨utf8 "backup", .plain, none, none⟩,
    .mapping ⟨true, none, none⟩ [(⟨utf8 "retention_days", .plain, none, none⟩,
      .scalar ⟨[], .plain, none, none⟩)])]

/-- Of an empty literal every byte is a digit or an underscore, it denotes no `u64`, and it passes. -/
theorem emptyRetention_passes :
    (∃ backup policy setting s, emptyRetention.HasEntry backup policy ∧ backup.value = utf8 "backup" ∧
      policy.HasEntry setting (.scalar s) ∧ setting.value = utf8 "retention_days" ∧ s.style = .plain ∧
      (∀ b ∈ s.value, isAsciiDigit b ∨ b = 95) ∧ ¬DenotesU64 s.value) ∧
    validateBackupPolicyYamlEvents emptyRetention.stream = .ok () := by
  refine ⟨⟨⟨utf8 "backup", .plain, none, none⟩, _, ⟨utf8 "retention_days", .plain, none, none⟩,
    ⟨[], .plain, none, none⟩, YamlNode.hasEntry_mapping.mpr List.mem_cons_self, rfl,
    YamlNode.hasEntry_mapping.mpr List.mem_cons_self, rfl, rfl, List.forall_mem_nil _, fun h => h.1 rfl⟩, ?_⟩
  rw [validate_stream_iff]
  refine ⟨rfl, rfl, ?_⟩
  decide

end AgentVoice.Config
