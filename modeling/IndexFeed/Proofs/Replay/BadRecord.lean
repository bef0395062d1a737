import IndexFeed.Proofs.Replay.RecordedLines
import IndexFeed.Proofs.Replay.Schedule
import IndexFeed.Proofs.Text.Utf8

/-!
# Replays that meet an invalid record

A recording is read up to its first invalid record, whose line is named however many blank lines
come before it (`ofLines_of_invalid`). All that was read till then is replayed as if the recording
ended there, and nothing behind it has a say (`stops_at_bad_record`).
-/

namespace IndexFeed

open Text (Bytes)

namespace Recording

/-- `Invalid line e`: the line is not blank and holds no valid record, for the reason `e`. -/
inductive Invalid (line : Bytes) : RecordError → Prop
  | unreadable {failure : Json.Failure Schema.Fault}
    (hblank : Text.isBlankText (Text.decodeLossy (stripEnd line)) = false)
    (h : RecordedEvent.ofLine (stripEnd line) = .error (.unreadable failure)) :
    Invalid line (.unreadable failure)
  | snapshotMissing {r : RecordedEvent}
    (hblank : Text.isBlankText (Text.decodeLossy (stripEnd line)) = false)
    (h : RecordedEvent.ofLine (stripEnd line) = .ok r) (hopcode : r.opcode = .snapshotMarker)
    (hsnapshot : r.snapshot = none) :
    Invalid line .snapshotMissing

/-- Of the lines `ls`, the first with an invalid record comes after `n` others. -/
structure FirstInvalid (ls : List Bytes) (n : Nat) (e : RecordError) : Prop where
  here : ∃ line, ls[n]? = some line ∧ Invalid line e
  earlier : ∀ i < n, ∀ line e', ls[i]? = some line → ¬ Invalid line e'

/-! ### Records -/

theorem toEvent_of_snapshot {r : RecordedEvent}
    (h : r.opcode = .snapshotMarker → r.snapshot ≠ none) : ∃ e, r.toEvent = .ok e := by
  have houtline : ∃ e, r.outline = .ok e := by
    unfold RecordedEvent.outline
    split
    case h_4 hopcode =>
      obtain ⟨snapshot, hsnapshot⟩ := Option.ne_none_iff_exists'.1 (h hopcode)
      rw [hsnapshot]
      exact ⟨_, rfl⟩
    all_goals exact ⟨_, rfl⟩
  obtain ⟨e, he⟩ := houtline
  exact ⟨_, by rw [RecordedEvent.toEvent, he]; rfl⟩

theorem toEvent_of_snapshotMissing {r : RecordedEvent} (hopcode : r.opcode = .snapshotMarker)
    (hsnapshot : r.snapshot = none) : r.toEvent = .error .snapshotMissing := by
  rw [RecordedEvent.toEvent, RecordedEvent.outline, hopcode, hsnapshot]
  rfl

theorem Invalid.fails {line : Bytes} {e : RecordError} (h : Invalid line e) :
    Text.isBlankText (Text.decodeLossy (stripEnd line)) = false ∧
      (RecordedEvent.ofLine (stripEnd line) >>= RecordedEvent.toEvent) = .error e := by
  cases h with
  | unreadable hblank h => exact ⟨hblank, by rw [h]; rfl⟩
  | snapshotMissing hblank h hopcode hsnapshot =>
    refine ⟨hblank, ?_⟩
    rw [h]
    exact toEvent_of_snapshotMissing hopcode hsnapshot

theorem Readable.not_invalid {line : Bytes} (h : Readable line) (e : RecordError) :
    ¬ Invalid line e := by
  intro hinvalid
  obtain ⟨hblank, hfails⟩ := hinvalid.fails
  rcases h.2 with h | ⟨event, h⟩
  · cases h.symm.trans hblank
  · cases h.symm.trans hfails

theorem readable_of_not_invalid {line : Bytes} (hflaw : Text.firstFlaw line = none)
    (h : ∀ e, ¬ Invalid line e) : Readable line := by
  refine ⟨hflaw, ?_⟩
  cases hblank : Text.isBlankText (Text.decodeLossy (stripEnd line)) with
  | true => exact .inl rfl
  | false =>
    right
    cases hr : RecordedEvent.ofLine (stripEnd line) with
    | error e => cases e with
      | unreadable failure => exact absurd (.unreadable hblank hr) (h _)
      | snapshotMissing =>
        unfold RecordedEvent.ofLine at hr
        split at hr <;> cases hr
    | ok r =>
      have hsnapshot : r.opcode = .snapshotMarker → r.snapshot ≠ none :=
        fun hopcode hnone => h _ (.snapshotMissing hblank hr hopcode hnone)
      exact toEvent_of_snapshot hsnapshot

/-! ### Lines -/

theorem readLine_of_invalid {line : Bytes} {e : RecordError} (hflaw : Text.firstFlaw line = none)
    (h : Invalid line e) (number : Nat) : readLine number line = .error (.badRecord number e) := by
  obtain ⟨hblank, hfails⟩ := h.fails
  simp [readLine, hflaw, hblank, hfails]

/-- **Reading stops at the first invalid record**, and the lines before it are counted, blank ones
and all. -/
theorem ofLines_of_invalid {init : List Bytes} {line : Bytes} {e : RecordError}
    (hinit : ∀ l ∈ init, Readable l) (hflaw : Text.firstFlaw line = none) (h : Invalid line e)
    (number : Nat) (rest : List Bytes) :
    ofLines number (init ++ line :: rest) =
      ⟨(ofLines number init).events, some (.badRecord (number + init.length) e)⟩ := by
  induction init generalizing number with
  | nil =>
    simp only [List.nil_append, ofLines, readLine_of_invalid hflaw h, List.length_nil, Nat.add_zero]
  | cons l init ih =>
    obtain ⟨hl, hinit⟩ := List.forall_mem_cons.1 hinit
    have hcount : number + 1 + init.length = number + (l :: init).length := by
      rw [List.length_cons]
      omega
    rw [List.cons_append, ofLines, ofLines, readLine_of_readable hl, ih hinit, hcount]
    cases eventOf? (stripEnd l) <;> rfl

theorem Lined.take {ls : List Bytes} (h : Lined ls) (n : Nat) : Lined (ls.take n) := by
  induction h generalizing n with
  | nil =>
    rw [List.take_nil]
    exact .nil
  | last hne hfeed => cases n with
    | zero => exact .nil
    | succ n =>
      rw [List.take_succ_cons, List.take_nil]
      exact .last hne hfeed
  | cons hfeed h ih => cases n with
    | zero => exact .nil
    | succ n => exact .cons hfeed (ih n)

theorem lines_flatten_take (text : Bytes) (n : Nat) :
    lines ((lines text).take n).flatten = (lines text).take n :=
  lines_flatten ((lined_lines text).take n)

/-- What has no line feed belongs to the first line behind it. -/
theorem lines_append_of_not_mem {init : Bytes} (hne : init ≠ []) (hfeed : lineFeed ∉ init)
    (rest : Bytes) :
    lines (init ++ rest) = match lines rest with
      | [] => [init]
      | line :: more => (init ++ line) :: more := by
  induction init with
  | nil => exact absurd rfl hne
  | cons b init ih =>
    obtain ⟨hb, hinit⟩ := List.ne_and_not_mem_of_not_mem_cons hfeed
    rw [List.cons_append, lines, if_neg (Ne.symm hb)]
    cases init with
    | nil => rfl
    | cons c init =>
      rw [ih (List.cons_ne_nil c init) hinit]
      cases lines rest <;> rfl

/-- The lines of encoded text are encoded text, for no character is cut in two. -/
theorem exists_encodeChars_of_mem_lines {cs : List Char} {line : Bytes}
    (h : line ∈ lines (Text.encodeChars cs)) : ∃ ds, line = Text.encodeChars ds := by
  induction cs generalizing line with
  | nil => cases h
  | cons c cs ih =>
    have hone : Text.encodeChar c = Text.encodeChars [c] := (List.flatMap_singleton ..).symm
    rw [Text.encodeChars_cons] at h
    by_cases hfeed : lineFeed ∈ Text.encodeChar c
    · rw [Text.eq_of_mem_encodeChar (by decide) hfeed, List.singleton_append, lines, if_pos rfl,
        ← Text.eq_of_mem_encodeChar (by decide) hfeed] at h
      rcases List.mem_cons.1 h with rfl | h
      · exact ⟨[c], hone⟩
      · exact ih h
    · rw [lines_append_of_not_mem (Text.encodeChar_ne_nil c) hfeed] at h
      cases hlines : lines (Text.encodeChars cs) with
      | nil =>
        rw [hlines] at h
        exact ⟨[c], (List.mem_singleton.1 h).trans hone⟩
      | cons first more =>
        rw [hlines] at h ih
        rcases List.mem_cons.1 h with rfl | h
        · obtain ⟨ds, rfl⟩ := ih List.mem_cons_self
          exact ⟨c :: ds, (Text.encodeChars_cons c ds).symm⟩
        · exact ih (List.mem_cons_of_mem _ h)

theorem firstFlaw_of_mem_lines {text : String} {line : Bytes}
    (h : line ∈ lines (Text.encode text)) : Text.firstFlaw line = none := by
  obtain ⟨ds, rfl⟩ := exists_encodeChars_of_mem_lines h
  exact Text.firstFlaw_encodeChars ds

section FirstInvalid

variable {text : String} {n : Nat} {e : RecordError}
  (h : FirstInvalid (lines (Text.encode text)) n e)

include h

theorem FirstInvalid.readable_of_mem_take {line : Bytes}
    (hline : line ∈ (lines (Text.encode text)).take n) : Readable line := by
  obtain ⟨i, hi, rfl⟩ := List.mem_take_iff_getElem.1 hline
  have hmem : (lines (Text.encode text))[i]? = some (lines (Text.encode text))[i] :=
    List.getElem?_eq_getElem _
  exact readable_of_not_invalid (firstFlaw_of_mem_lines (List.mem_of_getElem? hmem))
    fun e' => h.earlier i (by omega) _ e' hmem

theorem FirstInvalid.error_before :
    (ofText (some ((lines (Text.encode text)).take n).flatten)).error = none := by
  rw [ofText, lines_flatten_take, error_ofLines]
  exact fun line hline => h.readable_of_mem_take hline

/-- What is read of a text is what is read of the lines before its first invalid record. -/
theorem FirstInvalid.ofText_eq :
    ofText (some (Text.encode text)) =
      ⟨(ofText (some ((lines (Text.encode text)).take n).flatten)).events,
        some (.badRecord (n + 1) e)⟩ := by
  obtain ⟨line, hline, hinvalid⟩ := h.here
  obtain ⟨hlt, rfl⟩ := List.getElem?_eq_some_iff.1 hline
  have hsplit : lines (Text.encode text) = (lines (Text.encode text)).take n ++
      (lines (Text.encode text))[n] :: (lines (Text.encode text)).drop (n + 1) := by
    rw [← List.drop_eq_getElem_cons hlt, List.take_append_drop]
  have hcount : 1 + ((lines (Text.encode text)).take n).length = n + 1 := by
    rw [List.length_take, Nat.min_eq_left (Nat.le_of_lt hlt), Nat.add_comm]
  rw [ofText, ofText, lines_flatten_take]
  conv_lhs => rw [hsplit]
  rw [ofLines_of_invalid (fun _ => h.readable_of_mem_take)
    (firstFlaw_of_mem_lines (List.mem_of_getElem? hline)) hinvalid, hcount]

end FirstInvalid

end Recording

namespace Replay

open Recording

/-- **A bad record stops the replay there.** If the first invalid record of a text is on line
`n + 1`, the replay fails and names that line. What it writes and warns of is what a replay of the
first `n` lines, which succeeds, writes and warns of, in whatever order the workers take turns. -/
theorem stops_at_bad_record (s : ReplaySettings) (text : String) (n : Nat) (e : RecordError)
    (h : FirstInvalid (lines (Text.encode text)) n e) :
    let recording := ofText (some (Text.encode text))
    let before := ofText (some ((lines (Text.encode text)).take n).flatten)
    (run s recording {}).stats = .error (.recording (.badRecord (n + 1) e)) ∧
      (∀ path reason, (ReplayError.recording (.badRecord (n + 1) e)).message path reason =
        "Invalid record on line " ++ toString (n + 1) ++ ".: " ++ e.message) ∧
      (∃ stats, (run s before {}).stats = .ok stats) ∧
      (∀ sink, (run s recording sink).output = (run s before sink).output ∧
        (run s recording sink).warnings = (run s before sink).warnings) ∧
      ∀ turns,
        ((Underway.run s recording.events turns).Complete recording.events → ∀ p,
          (sentFor p (Underway.run s recording.events turns).stream).map OutputLine.print =
            (run s before {}).linesOf p) ∧
        ∃ more, (Underway.run s recording.events (turns ++ more)).Complete recording.events := by
  intro recording before
  have hrecording : recording = ⟨before.events, some (.badRecord (n + 1) e)⟩ := h.ofText_eq
  refine ⟨?_, fun _ _ => rfl, ⟨_, stats_run s before h.error_before⟩, fun sink => ?_,
    fun turns => ⟨fun hend p => ?_, Underway.exists_complete s recording.events turns⟩⟩
  · rw [hrecording]
    simp only [run, deliver_unlimited, outcome]
  · rw [hrecording]
    exact ⟨rfl, rfl⟩
  · have hevents : recording.events = before.events := by rw [hrecording]
    rw [Underway.sent_of_complete s recording.events turns hend, linesOf_run, hevents]

/-- A snapshot marker that lacks its snapshot. -/
def markerLine : Bytes := Text.encode "\x7b\"opcode\":\"snapshot_marker\",\"partition\":5\x7d\n"

/-- A blank line, a removal that is still to be written out, a control event of another partition,
the bad record, and a line that is not JSON at all. -/
def brokenText : String :=
  " \n\x7b\"opcode\":\"deletion\",\"partition\":3\x7d\n" ++
    "\x7b\"opcode\":\"sync\",\"partition\":5\x7d\n" ++
    "\x7b\"opcode\":\"snapshot_marker\",\"partition\":5\x7d\nnot a record"

theorem invalid_markerLine : Invalid markerLine .snapshotMissing := by
  have hblank : Text.isBlankText (Text.decodeLossy (stripEnd markerLine)) = false := by
    decide +kernel
  have hread : (RecordedEvent.ofLine (stripEnd markerLine)).toOption.any
      (fun r => r.opcode = .snapshotMarker && r.snapshot.isNone) = true := by
    decide +kernel
  cases hr : RecordedEvent.ofLine (stripEnd markerLine) with
  | error e =>
    rw [hr] at hread
    cases hread
  | ok r =>
    have hfields : r.opcode = .snapshotMarker ∧ r.snapshot = none := by
      simpa [hr, Except.toOption] using hread
    exact .snapshotMissing hblank hr hfields.1 hfields.2

theorem firstInvalid_brokenText :
    FirstInvalid (lines (Text.encode brokenText)) 3 .snapshotMissing := by
  have hbefore : (ofLines 1 ((lines (Text.encode brokenText)).take 3)).error = none :=
    Option.isNone_iff_eq_none.1 (by decide +kernel)
  have hreadable : ∀ line ∈ (lines (Text.encode brokenText)).take 3, Readable line :=
    (error_ofLines 1).1 hbefore
  refine ⟨⟨markerLine, by decide +kernel, invalid_markerLine⟩, fun i hi line e' hline => ?_⟩
  refine Readable.not_invalid (hreadable line ?_) e'
  rw [List.mem_iff_getElem?]
  exact ⟨i, by rw [List.getElem?_take_of_lt hi, hline]⟩

theorem stops_at_bad_record_marker :
    let s : ReplaySettings := {
      router := { definition := { source := "orders", instanceId := 7 } }
      topology := .ofAddresses ["a", "b"]
      keyFields := ["f"] }
    let recording := ofText (some (Text.encode brokenText))
    let removed (a : Address) : OutputLine :=
      .batch a ⟨⟨"orders", 3, 0⟩, [⟨0, [], 0, .deletion 7 none none⟩]⟩
    let sync : OutputLine := .lifecycle ⟨⟨"orders", 5, 0⟩, ⟨0, [], 0, .sync⟩⟩
    let error := ReplayError.recording (.badRecord 4 .snapshotMissing)
    FirstInvalid (lines (Text.encode brokenText)) 3 .snapshotMissing ∧
      (run s recording {}).stats = .error error ∧
      (∀ path reason, error.message path reason =
        "Invalid record on line 4.: Snapshot marker record is missing `snapshot`.") ∧
      (run s recording {}).output =
        [(3, [(removed "a").print, (removed "b").print]), (5, [sync.print])] ∧
      (run s recording {}).warnings = [] := by
  intro s recording removed sync error
  obtain ⟨hstats, hmessage, -, hsame, -⟩ :=
    stops_at_bad_record s brokenText 3 .snapshotMissing firstInvalid_brokenText
  obtain ⟨houtput, hwarnings⟩ := hsame {}
  have hbefore : ofText (some ((lines (Text.encode brokenText)).take 3).flatten) =
      ⟨[.ofDocument .deletion 3 [], .ofStream .sync 5 0 0], none⟩ :=
    eq_of_read (by decide +kernel)
  rw [hbefore] at houtput hwarnings
  refine ⟨firstInvalid_brokenText, hstats, hmessage, houtput.trans ?_, hwarnings.trans ?_⟩
  · decide +kernel
  · decide +kernel

end Replay

end IndexFeed
