import IndexFeed.Key.Computed
import IndexFeed.Proofs.Json.Levels
import IndexFeed.Proofs.Json.RoundTrip
import IndexFeed.Proofs.Key.Buffers
import IndexFeed.Proofs.Schema.Records
import IndexFeed.Replay.Recording
import Mathlib.Data.List.DropRight

/-!
# Bodies of recorded events

A body that a line held has a level to spare, for the record around it took one, and is canonical
(`isBody_of_ofLine`). So its text is accepted by the reader of bodies, and holds the body again but
for floats (`Projection.tuple?_print`). Both keys of an event can thus be computed
(`computeKeys_toEvent`).
-/

namespace IndexFeed

open Text (Bytes)
open Schema (Form)

/-- A body as a line holds it: it is not null, and the record around it leaves a level to spare. -/
structure IsBody (v : Json.Value) : Prop where
  height : v.height < Json.levels
  canonical : v.canonical = v
  ne_null : v ≠ .null

/-! ### Bodies of a line -/

/-- An option is read as null where the first letter of null stands, and nowhere else. -/
theorem isBody_of_reads {depth : Nat} (hdepth : depth < Json.levels) {body : Option Json.Value}
    (h : (Form.optional .json).Reads depth body) {v : Json.Value} (hv : body = some v) :
    IsBody v := by
  obtain ⟨i, j, h⟩ := h
  rw [Form.read] at h
  obtain ⟨next, k, hpeek, h⟩ := Json.Reader.bind_eq_ok.1 h
  cases hpeek
  split at h
  · obtain ⟨_, _, -, h⟩ := Json.Reader.bind_eq_ok.1 h
    obtain ⟨_, _, -, h⟩ := Json.Reader.bind_eq_ok.1 h
    cases h
    cases hv
  · next hnext =>
    obtain ⟨w, _, hread, h⟩ := Json.Reader.bind_eq_ok.1 h
    cases h
    cases hv
    rw [Form.read] at hread
    have hsame : ((i.dropWhile Json.Reader.isBlank).dropWhile Json.Reader.isBlank).rest =
        (i.dropWhile Json.Reader.isBlank).rest := by
      obtain ⟨p, t⟩ := i
      rw [Json.dropWhile_eq, Json.dropWhile_eq]
      exact List.dropWhile_idempotent ..
    refine ⟨(Json.height_le_of_readValue hread).trans_lt hdepth,
      Json.canonical_of_readValue hread, Json.ne_null_of_readValue hread ?_⟩
    rw [hsame]
    simpa using hnext

theorem isBody_of_held {depth : Nat} (hdepth : depth < Json.levels) {body : Option Json.Value}
    (h : (Form.optional .json).Reads depth body ∨ some none = some body) {v : Json.Value}
    (hv : body = some v) : IsBody v := by
  rcases h with h | h
  · exact isBody_of_reads hdepth h hv
  · rw [hv] at h
    cases h

namespace RecordedEvent

variable {line : Bytes} {r : RecordedEvent} {e : Event}

theorem reads_of_ofLine (h : ofLine line = .ok r) : form.Reads Json.levels r := by
  unfold ofLine at h
  split at h
  · next r hr =>
    cases h
    rw [Form.parse, Json.readWhole_eq_ok] at hr
    obtain ⟨q, t, hread, -⟩ := hr
    exact ⟨_, _, hread⟩
  · cases h

/-- **The bodies of a line**, whichever of the three they are. -/
theorem isBody_of_ofLine (h : ofLine line = .ok r) {v : Json.Value}
    (hv : r.value = some v ∨ r.oldValue = some v ∨ r.xattrs = some v) : IsBody v := by
  obtain ⟨d, vs, hd, rfl, hheld⟩ := Schema.held_of_read_record (reads_of_ofLine h)
  have hdepth : d < Json.levels := by omega
  obtain ⟨opcode, partition, epoch, seqno, key, value, oldValue, xattrs, cas, revSeqno, ctime,
    expiration, flags, snapshot, ⟨⟩⟩ := vs
  obtain ⟨-, -, -, -, -, hvalue, holdValue, hxattrs, -⟩ := hheld
  rcases hv with hv | hv | hv
  · exact isBody_of_held hdepth hvalue hv
  · exact isBody_of_held hdepth holdValue hv
  · exact isBody_of_held hdepth hxattrs hv

/-! ### Bodies of an event -/

/-- Whether the floats in the bodies that the event is given are read back from their texts. -/
def FloatsReadBack (r : RecordedEvent) : Prop :=
  ∀ body ∈ [r.body, r.oldValue], ∀ v ∈ body, ∀ x ∈ v.floats, Json.ReadsBack x

instance (r : RecordedEvent) : Decidable r.FloatsReadBack :=
  inferInstanceAs (Decidable (∀ body ∈ [r.body, r.oldValue], ∀ v ∈ body, ∀ x ∈ v.floats,
    Json.ReadsBack x))

theorem body_eq (r : RecordedEvent) :
    r.body = if r.opcode = .deletion ∨ r.opcode = .expiration then r.xattrs <|> r.value
      else r.value := by
  unfold body
  cases r.opcode <;> rfl

theorem opcode_of_outline (h : r.outline = .ok e) : e.opcode = r.opcode := by
  unfold outline at h
  split at h
  case h_4 hopcode =>
    split at h
    · cases h
      exact hopcode.symm
    · cases h
  all_goals
    cases h
    rfl

/-- No text of a body is empty, so that an empty one tells that there is none. -/
theorem bodyText_eq_nil {body : Option Json.Value} : bodyText body = [] ↔ body = none := by
  cases body with
  | none => exact iff_of_true rfl rfl
  | some v =>
    obtain ⟨b, t, htext, -⟩ := Json.opens_print v
    have hne : v.print ≠ [] := by rw [htext]; exact List.cons_ne_nil b t
    exact iff_of_false hne nofun

theorem toEvent_eq_ok (h : r.toEvent = .ok e) :
    e.opcode = r.opcode ∧ e.value = bodyText r.body ∧ e.oldValue = bodyText r.oldValue := by
  unfold toEvent at h
  cases houtline : r.outline with
  | error _ =>
    rw [houtline] at h
    cases h
  | ok outline =>
    rw [houtline] at h
    cases h
    exact ⟨(opcode_of_outline houtline :), rfl, rfl⟩

theorem isBody_of_mem (h : ofLine line = .ok r) {body : Option Json.Value}
    (hbody : body ∈ [r.body, r.oldValue]) {v : Json.Value} (hv : body = some v) : IsBody v := by
  refine isBody_of_ofLine h ?_
  rcases List.mem_pair.1 hbody with rfl | rfl
  · unfold body at hv
    split at hv
    · cases hxattrs : r.xattrs with
      | none =>
        rw [hxattrs] at hv
        exact .inl hv
      | some w =>
        rw [hxattrs] at hv
        exact .inr (.inr hv)
    · exact .inl hv
  · exact .inr (.inl hv)

end RecordedEvent

/-! ### Keys -/

namespace Projection

variable (p : Projection)

/-- The key of a body that is at hand; without a body there is none. -/
def key (body : Option Json.Value) : Option Bytes := body.bind fun v => (p.tuple v).encode

/-- **The text of a body is accepted**, and its floats are what their texts are read as. -/
theorem tuple?_print {v : Json.Value} (h : IsBody v) (hfloats : ∀ x ∈ v.floats, Json.ReadsBack x) :
    p.tuple? v.print = .ok (p.tuple v.reread.canonical) := by
  rw [tuple?, Json.parse_print h.height.le hfloats]

theorem verdict_print {v : Json.Value} (h : IsBody v)
    (hfloats : ∀ x ∈ v.floats, Json.ReadsBack x) (docid : Bytes) (m : Metadata)
    (b : Option Buffer) :
    p.evaluator.verdict ⟨docid, v.print, m⟩ b =
      .answered (p.tuple v.reread.canonical).encode := by
  rw [p.verdict_eq, p.tuple?_print h hfloats]

/-- Whatever is asked about the body of an event is answered with the key of the body. -/
theorem askKey_bodyText {body : Option Json.Value} (h : ∀ v ∈ body, IsBody v)
    (hfloats : ∀ v ∈ body, ∀ x ∈ v.floats, Json.ReadsBack x) (e : Event) (q : Inquiry) :
    (askKey p.evaluator e (RecordedEvent.bodyText body) q).1 =
      .ok (p.key (body.map fun v => v.reread.canonical)) := by
  cases body with
  | none => rfl
  | some v =>
    have hne : RecordedEvent.bodyText (some v) ≠ [] := mt RecordedEvent.bodyText_eq_nil.1 nofun
    have hverdict := p.verdict_print (h v rfl) (hfloats v rfl) e.key e.metadata q.buffer
    rw [askKey, if_neg (mt List.isEmpty_iff.1 hne)]
    exact congrArg Verdict.key hverdict

end Projection

theorem computeKeys_of_ask {ev : Evaluator} {e : Event} {new old : Option Bytes}
    (hnew : ∀ q, (askKey ev e e.value q).1 = .ok new)
    (hold : ∀ q, (askKey ev e e.oldValue q).1 = .ok old) (b : Option Buffer) :
    (computeKeys ev e b).1 = .ok { new, old } := by
  unfold computeKeys
  have hnew := hnew ⟨b, []⟩
  generalize askKey ev e e.value ⟨b, []⟩ = out at hnew
  obtain ⟨key, q⟩ := out
  obtain rfl : key = .ok new := hnew
  have hold := hold q
  simp only
  generalize askKey ev e e.oldValue q = out at hold
  obtain ⟨key, q'⟩ := out
  obtain rfl : key = .ok old := hold
  rfl

namespace RecordedEvent

variable {line : Bytes} {r : RecordedEvent} {e : Event} (h : ofLine line = .ok r)
  (he : r.toEvent = .ok e)

include h

theorem map_reread {body : Option Json.Value} (hbody : body ∈ [r.body, r.oldValue])
    (hfloats : ∀ v ∈ body, v.floats = []) : body.map (fun v => v.reread.canonical) = body := by
  cases hv : body with
  | none => rfl
  | some v =>
    have hnone : v.floats = [] := hfloats v hv
    have hcanonical : v.canonical = v := (isBody_of_mem h hbody hv).canonical
    rw [Option.map_some, Json.Value.reread_of_floats_eq_nil hnone, hcanonical]

/-- **No body of an event fails**, whatever else is told about it. -/
theorem answered_of_mem (hfloats : r.FloatsReadBack) {body : Option Json.Value}
    (hbody : body ∈ [r.body, r.oldValue]) (hne : bodyText body ≠ []) (p : Projection)
    (docid : Bytes) (m : Metadata) (b : Option Buffer) :
    ∃ k, p.evaluator.verdict ⟨docid, bodyText body, m⟩ b = .answered k := by
  cases body with
  | none => exact absurd rfl hne
  | some v =>
    have hv : IsBody v := isBody_of_mem h hbody rfl
    exact ⟨_, p.verdict_print hv (hfloats _ hbody v rfl) docid m b⟩

include he

/-- **Both keys of an event are computed**, from the bodies as they are read back. -/
theorem computeKeys_toEvent (hfloats : r.FloatsReadBack) (p : Projection) (b : Option Buffer) :
    (computeKeys p.evaluator e b).1 = .ok {
      new := p.key (r.body.map fun v => v.reread.canonical)
      old := p.key (r.oldValue.map fun v => v.reread.canonical) } := by
  obtain ⟨-, hvalue, holdValue⟩ := toEvent_eq_ok he
  have hask : ∀ body ∈ [r.body, r.oldValue], ∀ q, (askKey p.evaluator e (bodyText body) q).1 =
      .ok (p.key (body.map fun v => v.reread.canonical)) := fun body hbody q =>
    p.askKey_bodyText (fun v => isBody_of_mem h hbody) (hfloats body hbody) e q
  refine computeKeys_of_ask (fun q => ?_) (fun q => ?_) b
  · rw [hvalue]
    exact hask r.body List.mem_cons_self q
  · rw [holdValue]
    exact hask r.oldValue (List.mem_cons_of_mem _ List.mem_cons_self) q

end RecordedEvent

end IndexFeed
