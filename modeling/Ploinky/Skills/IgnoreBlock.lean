import Ploinky.Js.Plain

/-!
# The managed block of a `.gitignore`

In a folder outside Git the exporter keeps its patterns in a marked block at the end of `.gitignore`, with a
receipt of what it wrote; once the folder is a Git worktree the block is taken out again. `managed` is what the
folder should hold. `gitignore_keeps_text`: a file that is UTF-8 is kept as it was, in front of the current
block, by every sequence of updates, and comes back when the block is taken out. Every step decodes the file
and encodes it again, so that other octets are lost (`other_octets_lost`).
-/

namespace Ploinky.Skills.Ignore

open Js List

/-- `IGNORE_MARKER_START`. -/
def ignoreMarkerStart : Str := "# >>> ploinky default-skills >>>"

/-- `IGNORE_MARKER_END`. -/
def ignoreMarkerEnd : Str := "# <<< ploinky default-skills <<<"

/-- `RECORD_PROTOCOL`. -/
def recordProtocol : Str := "ploinky-skill-exclusions"

/-- `managedBlock(patterns)`. -/
def managedBlock (patterns : List Str) : Str :=
  ignoreMarkerStart ++ '\n' :: (join patterns '\n' ++ '\n' :: (ignoreMarkerEnd ++ ['\n']))

/-- What is found at a path. -/
inductive Entry where
  | absent
  | irregular
  | regular (bytes : Bytes)
  deriving DecidableEq

/-- `readRegular(file)`. -/
def readRegular : Entry → Option Bytes
  | .regular bytes => some bytes
  | .absent | .irregular => none

/-- The two files of a folder. -/
structure Folder where
  gitignore : Entry
  receipt : Entry
  deriving DecidableEq

/-- The bytes to write, or nothing for a file to remove. -/
structure Artifacts where
  gitignore : Option Bytes
  receipt : Option Bytes

/-- What a planner reports. -/
inductive Status where
  | preserved (code reason : Str)
  | unchanged
  | published

variable (platform : Platform)

/-- `readReceipt(root)`. -/
def readReceipt (folder : Folder) : Option Json :=
  ((readRegular folder.receipt).bind fun bytes => platform.parseJson (textOf platform bytes)).filter
    fun receipt => isStr (receipt.prop "protocol") recordProtocol && isStr (receipt.prop "path") ".gitignore" &&
      ((receipt.prop "block").bind Json.str?).isSome && ((receipt.prop "after").bind Json.str?).isSome

/-- A receipt. -/
def receiptValue (before : Json) (beforeAbsent : Bool) (after block : Str) : Json :=
  .obj [("protocol", .str recordProtocol), ("version", .num "1"), ("path", .str ".gitignore"),
    ("before", before), ("beforeAbsent", .bool beforeAbsent), ("after", .str after), ("block", .str block)]

/-- `receiptBytes(receipt)`. -/
def receiptBytes (receipt : Json) : Bytes := utf8Bytes (platform.prettyJson receipt ++ ['\n'])

/-- `content.indexOf(block, start)`. -/
def indexOf (content block : Str) (start : Nat) : Option Nat :=
  (range' start (content.length + 1 - start)).find? fun i => startsWith (content.drop i) block

/-- `withoutReceiptBlock(bytes, receipt)`. -/
def withoutReceiptBlock (bytes : Bytes) (receipt : Json) : Option Bytes :=
  let content := textOf platform bytes
  let block := ((receipt.prop "block").bind Json.str?).getD []
  match indexOf content block 0 with
  | none => none
  | some first =>
    if (indexOf content block (first + 1)).isSome then none
    else some (utf8Bytes (content.take first ++ content.drop (first + block.length)))

/-- The line break in front of a block. -/
def separator (text : Str) : Str := if !text.isEmpty && !endsWith text ['\n'] then ['\n'] else []

/-- The user's part of a file that has a block. -/
def baseOf (gitignore : Str) (current : Bytes) (receipt : Option Json) : Except Status Bytes :=
  match receipt.filter fun receipt => isStr (receipt.prop "after") (platform.sha256 current) with
  | none => .error (.preserved "unverified-ignore-block-preserved" (gitignore ++
      lit " has a Ploinky marker block without a matching write receipt; it is left unchanged. " ++
      lit "Remove the block by hand to let Ploinky manage it again."))
  | some receipt =>
    match withoutReceiptBlock platform current receipt with
    | none => .error (.preserved "unverified-ignore-block-preserved"
        (gitignore ++ lit " no longer contains the recorded block exactly once."))
    | some base => .ok base

/-- The end of `planNonGit`: the block is written behind the user's part. -/
def publishBlock (current : Option Bytes) (beforeAbsent : Bool) (base : Bytes) (patterns : List Str) :
    Status × Option Artifacts :=
  let block := separator (textOf platform base) ++ managedBlock patterns
  let next := utf8Bytes (textOf platform base ++ block)
  if current = some next then (.unchanged, none)
  else (.published, some ⟨some next, some (receiptBytes platform (receiptValue
    (if beforeAbsent then .null else .str (platform.sha256 base)) beforeAbsent (platform.sha256 next) block))⟩)

/-- `planNonGit(root, patterns, { nonGitBlock })`, for the path of the `.gitignore`. -/
def planNonGit (gitignore : Str) (folder : Folder) (patterns : List Str) (nonGitBlock : Bool) :
    Status × Option Artifacts :=
  if folder.gitignore = .irregular then
    (.preserved "gitignore-not-regular-file"
      (gitignore ++ lit " is not a regular file; it is left unchanged."), none)
  else
    let current := readRegular folder.gitignore
    let receipt := readReceipt platform folder
    let hasMarkers := current.any fun bytes => includes (textOf platform bytes) ignoreMarkerStart
    if hasMarkers then
      match baseOf platform gitignore (current.getD []) receipt with
      | .error status => (status, none)
      | .ok base =>
        publishBlock platform current (truthy (receipt.bind (·.prop "beforeAbsent"))) base patterns
    else if nonGitBlock then publishBlock platform current current.isNone (current.getD []) patterns
    else (.unchanged, none)

/-- `planGitInitMigration(identity, git)`, given whether Git tracks the file: what is written, and whether
there is a warning. -/
def planGitInitMigration (folder : Folder) (tracked : Bool) : Option Artifacts × Bool :=
  match readReceipt platform folder, readRegular folder.gitignore with
  | some receipt, some current =>
    if !isStr (receipt.prop "after") (platform.sha256 current) then (none, false)
    else if tracked then (none, true)
    else match withoutReceiptBlock platform current receipt with
      | none => (none, false)
      | some base =>
        if receipt.prop "before" ≠ some .null ∧ ¬ isStr (receipt.prop "before") (platform.sha256 base) then
          (none, false)
        else (some ⟨if truthy (receipt.prop "beforeAbsent") ∧ base = [] then none else some base, none⟩, false)
  | _, _ => (none, false)

/-- The folder with the artifacts in place. -/
def Folder.apply (folder : Folder) : Option Artifacts → Folder
  | none => folder
  | some artifacts => ⟨artifacts.gitignore.elim .absent .regular, artifacts.receipt.elim .absent .regular⟩

/-- One update, with its patterns and whether it may start a block. -/
def update (gitignore : Str) (folder : Folder) (request : List Str × Bool) : Folder :=
  folder.apply (planNonGit platform gitignore folder request.1 request.2).2

/-! ## What the folder should hold -/

/-- The patterns of the current block: once there is a block, those of the last update. -/
def shown (current : Option (List Str)) (request : List Str × Bool) : Option (List Str) :=
  if current.isSome || request.2 then some request.1 else none

/-- The user's text with a block after it. -/
def withBlock (text : Str) (patterns : List Str) : Str := text ++ (separator text ++ managedBlock patterns)

/-- The folder for the text of the user's file, which may be absent, and the patterns of the block. -/
def managed (text : Option Str) : Option (List Str) → Folder
  | none => ⟨text.elim .absent fun text => .regular (utf8Bytes text), .absent⟩
  | some patterns =>
    ⟨.regular (utf8Bytes (withBlock (text.getD []) patterns)),
      .regular (receiptBytes platform (receiptValue
        (if text.isNone then .null else .str (platform.sha256 (utf8Bytes (text.getD []))))
        text.isNone (platform.sha256 (utf8Bytes (withBlock (text.getD []) patterns)))
        (separator (text.getD []) ++ managedBlock patterns)))⟩

theorem utf8Bytes_injective {text other : Str} (h : utf8Bytes text = utf8Bytes other) : text = other := by
  have hdecoded := congrArg utf8Decode h
  rw [utf8Decode_utf8Bytes, utf8Decode_utf8Bytes] at hdecoded
  exact Option.some.inj hdecoded

/-- A line that starts a text starts every text with the same first lines. -/
theorem prefix_of_line {line front rest tail : Str} (hline : '\n' ∉ line)
    (h : front ++ '\n' :: rest = line ++ '\n' :: tail) : line <+: front := by
  rcases append_eq_append_iff.mp h with ⟨more, hmore, hrest⟩ | ⟨more, hmore, -⟩
  · obtain _ | ⟨c, more⟩ := more
    · simp [hmore]
    · rw [cons_append, cons.injEq] at hrest
      exact absurd (by simp [hmore, ← hrest.1]) hline
  · exact ⟨more, hmore.symm⟩

section Blocks

variable {text : Str} (htext : ¬ ignoreMarkerStart <:+: text) (patterns : List Str)

include htext

/-- The block begins nowhere in the user's text. -/
theorem not_startsWith_block {i : Nat} (hi : i < text.length) :
    ¬ (separator text ++ managedBlock patterns) <+: (withBlock text patterns).drop i := by
  rintro ⟨tail, htail⟩
  have hfront : text.drop i <:+: text := (drop_suffix i text).isInfix
  have hne : text.drop i ≠ [] := by simpa using hi
  have hmarker : '\n' ∉ ignoreMarkerStart := by decide
  rw [withBlock, drop_append_of_le_length (Nat.le_of_lt hi)] at htail
  by_cases hseparator : !text.isEmpty && !endsWith text ['\n']
  · -- the text is closed by a line break, which the first line of the block does not have
    rw [separator, if_pos hseparator] at htail
    obtain ⟨c, front, hcons⟩ := exists_cons_of_ne_nil hne
    rw [hcons] at htail hfront
    simp only [managedBlock, cons_append, nil_append, append_assoc, cons.injEq] at htail
    have hbegins := prefix_of_line hmarker htail.2.symm
    exact htext (hbegins.isInfix.trans ((suffix_cons c front).isInfix.trans hfront))
  · rw [separator, if_neg hseparator] at htail
    have hend : ['\n'] <:+ text := by
      have htext : text ≠ [] := by
        rintro rfl
        simp at hi
      simpa [endsWith, htext] using hseparator
    obtain ⟨front, hlast⟩ : ['\n'] <:+ text.drop i :=
      suffix_of_suffix_length_le hend (drop_suffix i text) (length_pos_iff.mpr hne)
    rw [← hlast] at htail hfront
    simp only [nil_append, append_assoc, cons_append] at htail
    have hbegins := prefix_of_line hmarker htail.symm
    exact htext (hbegins.isInfix.trans ((prefix_append front _).isInfix.trans hfront))

/-- The block is found behind the user's text, and nowhere else. -/
theorem withoutReceiptBlock_withBlock {receipt : Json}
    (hreceipt : receipt.prop "block" = some (.str (separator text ++ managedBlock patterns))) :
    withoutReceiptBlock platform (utf8Bytes (withBlock text patterns)) receipt = some (utf8Bytes text) := by
  have hfirst : indexOf (withBlock text patterns) (separator text ++ managedBlock patterns) 0 =
      some text.length := by
    unfold indexOf
    rw [find?_range'_eq_some]
    refine ⟨?_, ?_, ?_⟩
    · simp [withBlock, startsWith]
    · rw [mem_range'_1, withBlock, length_append]
      omega
    · intro i _ hi
      rw [Bool.not_eq_true', Bool.eq_false_iff, ne_eq, startsWith_iff]
      exact not_startsWith_block htext patterns hi
  have hlater : (indexOf (withBlock text patterns) (separator text ++ managedBlock patterns)
      (text.length + 1)).isSome = false := by
    unfold indexOf
    rw [Option.isSome_eq_false_iff, Option.isNone_iff_eq_none, find?_eq_none]
    intro i hi hstarts
    have hlength := ( isPrefixOf_iff_prefix.mp hstarts).length_le
    have hlate : text.length + 1 ≤ i := (mem_range'_1.mp hi).1
    simp only [withBlock, length_drop, length_append] at hlength
    have hblock : 0 < (managedBlock patterns).length := by simp [managedBlock]
    omega
  unfold withoutReceiptBlock
  simp only [textOf_utf8Bytes, hreceipt, Option.bind_some, Json.str?, Option.getD_some, hfirst, hlater]
  simp [withBlock]

end Blocks

variable {platform} {text : Option Str}

/-- The hash of the user's file that a receipt has. -/
def beforeHash (platform : Platform) (text : Option Str) : Json :=
  if text.isNone then .null else .str (platform.sha256 (utf8Bytes (text.getD [])))

section Updates

variable (hjson : platform.JsonText) (htext : ∀ t ∈ text, ¬ ignoreMarkerStart <:+: t)

include hjson htext

/-- The receipt of a managed folder is read as it was written, and the block it names can be taken out. -/
theorem readReceipt_managed (patterns : List Str) : ∃ receipt,
    readReceipt platform (managed platform text (some patterns)) = some receipt ∧
      receipt.prop "before" = some (beforeHash platform text) ∧
      receipt.prop "beforeAbsent" = some (.bool text.isNone) ∧
      receipt.prop "after" = some (.str (platform.sha256 (utf8Bytes (withBlock (text.getD []) patterns)))) ∧
      withoutReceiptBlock platform (utf8Bytes (withBlock (text.getD []) patterns)) receipt =
        some (utf8Bytes (text.getD [])) := by
  have hbefore : (beforeHash platform text).written platform.isNumber = beforeHash platform text := by
    unfold beforeHash
    split_ifs <;> simp
  have hwritten : ∀ after block : Str,
      (receiptValue (beforeHash platform text) text.isNone after block).written platform.isNumber =
        .obj [("protocol", .str recordProtocol), ("version", (Json.num "1").written platform.isNumber),
          ("path", .str ".gitignore"), ("before", beforeHash platform text),
          ("beforeAbsent", .bool text.isNone), ("after", .str after), ("block", .str block)] := by
    intro after block
    have hliteral : isLiteral [lit "protocol", lit "version", lit "path", lit "before", lit "beforeAbsent",
      lit "after", lit "block"] = true := by decide
    rw [receiptValue, Json.written_literal _ (by exact hliteral)]
    simp [mapValues, hbefore]
  have huser : ¬ ignoreMarkerStart <:+: text.getD [] := by
    cases text with
    | none => decide
    | some t => exact htext t rfl
  have hread : ∀ gitignore (after block : Str), readReceipt platform ⟨gitignore, .regular (receiptBytes platform
      (receiptValue (beforeHash platform text) text.isNone after block))⟩ =
        some ((receiptValue (beforeHash platform text) text.isNone after block).written platform.isNumber) := by
    intro gitignore after block
    simp only [readReceipt, readRegular, receiptBytes, Option.bind_some, textOf_utf8Bytes, hjson.newline,
      hjson.pretty, hwritten]
    rfl
  refine ⟨_, hread _ _ _, ?_⟩
  rw [hwritten]
  exact ⟨rfl, rfl, rfl, withoutReceiptBlock_withBlock platform huser patterns rfl⟩

omit hjson htext in
/-- The block is published behind the user's text, unless it is there already. -/
theorem apply_publishBlock {folder : Folder} {current : Option Bytes} {patterns : List Str}
    (hcurrent : current = some (utf8Bytes (withBlock (text.getD []) patterns)) →
      folder = managed platform text (some patterns)) :
    folder.apply (publishBlock platform current text.isNone (utf8Bytes (text.getD [])) patterns).2 =
      managed platform text (some patterns) := by
  unfold publishBlock
  rw [textOf_utf8Bytes]
  by_cases hsame : current = some (utf8Bytes (withBlock (text.getD []) patterns))
  · rw [if_pos (by exact hsame)]
    exact hcurrent hsame
  · rw [if_neg (by exact hsame)]
    rfl

/-- An update leads from one managed folder to the next. -/
theorem update_managed (gitignore : Str) (current : Option (List Str)) (request : List Str × Bool) :
    update platform gitignore (managed platform text current) request =
      managed platform text (shown current request) := by
  obtain ⟨patterns, nonGitBlock⟩ := request
  unfold update planNonGit
  cases current with
  | none =>
    have hplain : (text.map utf8Bytes).any (fun bytes => includes (textOf platform bytes) ignoreMarkerStart) =
        false := by
      cases text with
      | none => rfl
      | some t =>
        rw [Option.map_some, Option.any_some, textOf_utf8Bytes, Bool.eq_false_iff, ne_eq, includes_iff]
        exact htext t rfl
    have hfile : (managed platform text none).gitignore ≠ .irregular ∧
        readRegular (managed platform text none).gitignore = text.map utf8Bytes := by
      cases text <;> simp [managed, readRegular]
    have hbase : (text.map utf8Bytes).isNone = text.isNone ∧
        (text.map utf8Bytes).getD [] = utf8Bytes (text.getD []) := by
      cases text <;> simp [utf8Bytes]
    rw [if_neg hfile.1, hfile.2]
    dsimp only
    rw [hplain, hbase.1, hbase.2]
    cases nonGitBlock with
    | false => rfl
    | true =>
      refine apply_publishBlock fun hsame => ?_
      obtain ⟨t, rfl, hbytes⟩ := Option.map_eq_some_iff.mp hsame
      have hlength := congrArg length (utf8Bytes_injective hbytes)
      simp [withBlock, managedBlock] at hlength
  | some old =>
    obtain ⟨receipt, hread, -, habsent, hafter, hwithout⟩ := readReceipt_managed hjson htext old
    have hmarkers : includes (withBlock (text.getD []) old) ignoreMarkerStart = true := by
      rw [includes_iff]
      have hblock : managedBlock old <:+ withBlock (text.getD []) old :=
        (suffix_append _ _).trans (suffix_append _ _)
      exact (prefix_append _ _).isInfix.trans hblock.isInfix
    have hfile : readRegular (managed platform text (some old)).gitignore =
        some (utf8Bytes (withBlock (text.getD []) old)) := rfl
    rw [hread, hfile]
    simp only [Option.any_some, textOf_utf8Bytes, hmarkers, if_true, Option.getD_some, baseOf, Option.filter,
      hafter, isStr, beq_self_eq_true, hwithout, Option.bind_some, habsent]
    refine apply_publishBlock fun hsame => ?_
    have hblocks : managedBlock old = managedBlock patterns := by
      have htexts := utf8Bytes_injective (Option.some.inj hsame)
      simpa [withBlock] using htexts
    simp [managed, withBlock, hblocks]

end Updates

/-- For a `.gitignore` that is absent or a text without the start marker, and every sequence of updates: the
file is the text as it was, with the current block behind it once there is one, and taking the block out of an
untracked file gives the text back, or no file. -/
theorem gitignore_keeps_text (hjson : platform.JsonText) (text : Option Str)
    (htext : ∀ t ∈ text, ¬ ignoreMarkerStart <:+: t) (gitignore : Str) (history : List (List Str × Bool)) :
    let initial := text.elim Entry.absent fun t => .regular (utf8Bytes t)
    let folder := history.foldl (update platform gitignore) ⟨initial, .absent⟩
    folder.gitignore = (history.foldl shown none).elim initial (fun patterns => .regular (utf8Bytes
        (text.getD [] ++ (separator (text.getD []) ++ managedBlock patterns)))) ∧
      (folder.apply (planGitInitMigration platform folder false).1).gitignore = initial := by
  intro initial folder
  have hrun : ∀ current, history.foldl (update platform gitignore) (managed platform text current) =
      managed platform text (history.foldl shown current) := by
    induction history with
    | nil => exact fun _ => rfl
    | cons request history ih =>
      intro current
      rw [foldl_cons, update_managed hjson htext]
      exact ih _
  have hfolder : folder = managed platform text (history.foldl shown none) := hrun none
  rw [hfolder]
  cases history.foldl shown none with
  | none => exact ⟨rfl, rfl⟩
  | some patterns =>
    refine ⟨rfl, ?_⟩
    obtain ⟨receipt, hread, hbefore, habsent, hafter, hwithout⟩ := readReceipt_managed hjson htext patterns
    have hfile : readRegular (managed platform text (some patterns)).gitignore =
        some (utf8Bytes (withBlock (text.getD []) patterns)) := rfl
    unfold planGitInitMigration
    simp only [hread, hfile, hafter, hwithout, hbefore, habsent, isStr, beforeHash]
    cases text with
    | none =>
      simp [truthy, Json.truthy, utf8Bytes]
      rfl
    | some t =>
      simp [truthy, Json.truthy]
      rfl

/-- A file whose last line is not ended, with two updates. -/
theorem gitignore_keeps_text_twice :
    ((([([lit "/a"], true), ([lit "/b"], false)] : List (List Str × Bool)).foldl
      (update Plain.platform ".gitignore") ⟨.regular (utf8Bytes "x"), .absent⟩).gitignore =
        .regular (utf8Bytes (lit "x" ++ ('\n' :: managedBlock [lit "/b"])))) :=
  (gitignore_keeps_text Plain.jsonText (some (lit "x"))
    (by
      intro t ht
      cases ht
      decide) ".gitignore" [([lit "/a"], true), ([lit "/b"], false)]).1

/-- A platform that decodes an octet that is no UTF-8 as U+FFFD. -/
def replacing : Platform := { Plain.platform with replaceInvalid := fun _ => [Char.ofNat 0xFFFD] }

/-- The octet 255 of the user's file is replaced by the three octets of U+FFFD. -/
theorem other_octets_lost : (update replacing ".gitignore" ⟨.regular [255], .absent⟩ ([], true)).gitignore =
        .regular (utf8Bytes (Char.ofNat 0xFFFD :: '\n' :: managedBlock [])) ∧
      utf8Bytes [Char.ofNat 0xFFFD] = [239, 191, 189] := by
  exact ⟨rfl, by decide⟩

end Ploinky.Skills.Ignore
