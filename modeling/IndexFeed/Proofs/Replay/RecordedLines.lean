import IndexFeed.Replay.Recording

/-!
# Lines of a recording

A recording without a bad line holds the events of its lines, whatever numbers and ends the lines
have (`events_ofText`). Some lines of a text, one after the other, are a text with these lines
(`lines_flatten_filter`), and it has no bad line if the text has none
(`error_ofText_flatten_filter`).
-/

namespace IndexFeed

open Text (Bytes)

namespace Recording

/-- The event that a line without its end holds, if it holds one. -/
def eventOf? (content : Bytes) : Option Event :=
  if Text.isBlankText (Text.decodeLossy content) then none
  else (RecordedEvent.ofLine content >>= RecordedEvent.toEvent).toOption

/-- A line that can be read: it is UTF-8, and blank or with an event. -/
def Readable (line : Bytes) : Prop :=
  Text.firstFlaw line = none ∧
    (Text.isBlankText (Text.decodeLossy (stripEnd line)) = true ∨
      ∃ e, (RecordedEvent.ofLine (stripEnd line) >>= RecordedEvent.toEvent) = .ok e)

/-- The lines of a text: all end in their first line feed, but the last may lack it. -/
inductive Lined : List Bytes → Prop
  | nil : Lined []
  | last {line : Bytes} (hne : line ≠ []) (hfeed : lineFeed ∉ line) : Lined [line]
  | cons {init : Bytes} {ls : List Bytes} (hfeed : lineFeed ∉ init) (h : Lined ls) :
    Lined ((init ++ [lineFeed]) :: ls)

/-! ### Reading a line -/

theorem readLine_of_readable {line : Bytes} (h : Readable line) (number : Nat) :
    readLine number line = .ok (eventOf? (stripEnd line)) := by
  obtain ⟨hflaw, hcontent⟩ := h
  unfold readLine eventOf?
  rw [hflaw]
  rcases hcontent with hblank | ⟨e, he⟩
  · simp [hblank]
  · by_cases hblank : Text.isBlankText (Text.decodeLossy (stripEnd line)) = true
    · simp [hblank]
    · simp [hblank, he, Except.toOption]

theorem readable_of_readLine {line : Bytes} {number : Nat} {e : Option Event}
    (h : readLine number line = .ok e) : Readable line := by
  unfold readLine at h
  split at h
  · cases h
  · next hflaw =>
    refine ⟨hflaw, ?_⟩
    simp only at h
    split at h
    · next hblank => exact .inl hblank
    · split at h
      · next e he => exact .inr ⟨e, he⟩
      · cases h

theorem error_ofLines (number : Nat) {ls : List Bytes} :
    (ofLines number ls).error = none ↔ ∀ line ∈ ls, Readable line := by
  induction ls generalizing number with
  | nil => simp [ofLines]
  | cons line ls ih =>
    rw [List.forall_mem_cons, ← ih (number + 1), ofLines]
    constructor
    · intro h
      split at h
      · cases h
      · next hread => exact ⟨readable_of_readLine hread, h⟩
      · next hread => exact ⟨readable_of_readLine hread, h⟩
    · rintro ⟨hline, hrest⟩
      rw [readLine_of_readable hline]
      split
      · next hread => cases hread
      · exact hrest
      · exact hrest

theorem events_ofLines {number : Nat} {ls : List Bytes} (h : ∀ line ∈ ls, Readable line) :
    (ofLines number ls).events = (ls.map stripEnd).filterMap eventOf? := by
  induction ls generalizing number with
  | nil => rfl
  | cons line ls ih =>
    obtain ⟨hline, hrest⟩ := List.forall_mem_cons.1 h
    rw [ofLines, readLine_of_readable hline, List.map_cons, List.filterMap_cons]
    cases eventOf? (stripEnd line) with
    | none => exact ih hrest
    | some e => exact congrArg (e :: ·) (ih hrest)

/-- **The events of a recording** are those of its lines. -/
theorem events_ofText {text : Bytes} (h : (ofText (some text)).error = none) :
    (ofText (some text)).events = ((lines text).map stripEnd).filterMap eventOf? :=
  events_ofLines ((error_ofLines 1).1 h)

/-! ### Texts made of lines -/

theorem lined_lines (text : Bytes) : Lined (lines text) := by
  induction text with
  | nil => exact .nil
  | cons b rest ih =>
    unfold lines
    split
    · next hb =>
      rw [hb]
      exact .cons List.not_mem_nil ih
    · next hb =>
      have hb : lineFeed ≠ b := Ne.symm hb
      split
      · exact .last (List.cons_ne_nil b []) (by simpa using hb)
      · next line more hlines =>
        rw [hlines] at ih
        cases ih with
        | last hne hfeed => exact .last (List.cons_ne_nil b line) (by simp [hb, hfeed])
        | @cons init _ hfeed h =>
          have hinit : lineFeed ∉ b :: init := by simp [hb, hfeed]
          exact .cons hinit h

theorem Lined.filter {ls : List Bytes} (h : Lined ls) (q : Bytes → Bool) : Lined (ls.filter q) := by
  induction h with
  | nil => exact .nil
  | @last line hne hfeed =>
    by_cases hq : q line
    · rw [List.filter_cons_of_pos hq]
      exact .last hne hfeed
    · rw [List.filter_cons_of_neg hq]
      exact .nil
  | @cons init ls hfeed h ih =>
    by_cases hq : q (init ++ [lineFeed])
    · rw [List.filter_cons_of_pos hq]
      exact .cons hfeed ih
    · rw [List.filter_cons_of_neg hq]
      exact ih

theorem lines_of_not_mem {line : Bytes} (hne : line ≠ []) (hfeed : lineFeed ∉ line) :
    lines line = [line] := by
  induction line with
  | nil => exact absurd rfl hne
  | cons b rest ih =>
    obtain ⟨hb, hrest⟩ := List.ne_and_not_mem_of_not_mem_cons hfeed
    unfold lines
    rw [if_neg (Ne.symm hb)]
    cases rest with
    | nil => rfl
    | cons c rest => rw [ih (List.cons_ne_nil c rest) hrest]

theorem lines_append {init : Bytes} (hfeed : lineFeed ∉ init) (rest : Bytes) :
    lines (init ++ [lineFeed] ++ rest) = (init ++ [lineFeed]) :: lines rest := by
  induction init with
  | nil => simp [lines]
  | cons b init ih =>
    obtain ⟨hb, hinit⟩ := List.ne_and_not_mem_of_not_mem_cons hfeed
    rw [List.cons_append, List.cons_append, lines, if_neg (Ne.symm hb), ih hinit]

theorem lines_flatten {ls : List Bytes} (h : Lined ls) : lines ls.flatten = ls := by
  induction h with
  | nil => rfl
  | @last line hne hfeed =>
    rw [List.flatten_singleton]
    exact lines_of_not_mem hne hfeed
  | cons hfeed h ih => rw [List.flatten_cons, lines_append hfeed, ih]

/-- Lines that are picked out of a text are the lines of what they make up. -/
theorem lines_flatten_filter (text : Bytes) (q : Bytes → Bool) :
    lines ((lines text).filter q).flatten = (lines text).filter q :=
  lines_flatten ((lined_lines text).filter q)

theorem error_ofText_flatten_filter {text : Bytes} (h : (ofText (some text)).error = none)
    (q : Bytes → Bool) : (ofText (some ((lines text).filter q).flatten)).error = none := by
  have hall : ∀ line ∈ lines text, Readable line := (error_ofLines 1).1 h
  rw [ofText, lines_flatten_filter, error_ofLines]
  exact fun line hline => hall line ((List.mem_filter.1 hline).1)

end Recording

end IndexFeed
