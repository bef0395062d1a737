import IndexFeed.Proofs.Config.InlineTexts
import IndexFeed.Proofs.Config.Overrides
import IndexFeed.Proofs.Replay.RouterPart

/-!
# Texts set by variables

A definition has two fields that are texts. A variable for one of them, over files, sets it to the
very text of the variable and leaves all other fields as they are, for a router on its own and for
that of a replay. This needs the definition of the files to be a mapping, for a sequence goes
altogether when a field is set, and the text of the variable to be no literal, for a number or a
list is not taken for a text. Otherwise no configuration ever holds that text
(`set_by_variable`).
-/

namespace IndexFeed

open Config (Entries Environment Layers SetAt Source)
open Schema (Datum Fields Form Reading)

/-! ### Definitions -/

/-- The fields of a definition that are texts. -/
inductive Definition.TextField where
  | source
  | functionName
  deriving DecidableEq, Repr

namespace Definition.TextField

def name : TextField → String
  | source => "source"
  | functionName => "function_name"

def get : TextField → Definition → String
  | source, d => d.source
  | functionName, d => d.functionName

def set (s : String) : TextField → Definition → Definition
  | source, d => { d with source := s }
  | functionName, d => { d with functionName := s }

def path (field : TextField) : Config.Path := ["definition", field.name]

end Definition.TextField

def RouterSettings.setText (field : Definition.TextField) (s : String) (c : RouterSettings) :
    RouterSettings := { c with definition := field.set s c.definition }

def ReplaySettings.setText (field : Definition.TextField) (s : String) (c : ReplaySettings) :
    ReplaySettings := { c with router := c.router.setText field s }

/-- Whether the definition of a configuration is a mapping. -/
def Config.hasMappedDefinition (es : Entries) : Bool :=
  (es.get? "definition").any Config.isMapping

/-! ### Records and their entries -/

section Records

variable {r : Reading} {es es' : Entries}

theorem Definition.value?_eq_some (h : Config.Tidy (.mapping es)) {c : Definition} :
    Definition.form.value? r (.mapping es) = some c ↔
      Form.text.valueOr? r none (es.get? "source") = some c.source ∧
      (Form.word .long).valueOr? r none (es.get? "instance_id") = some c.instanceId ∧
      Form.text.valueOr? r (some "") (es.get? "function_name") = some c.functionName ∧
      Form.flag.valueOr? r (some false) (es.get? "retain_deleted_xattr") =
        some c.retainDeletedXattr := by
  refine (Schema.value?_record_eq_some (by decide) h.hasDistinctNames).trans ⟨?_, ?_⟩
  · rintro ⟨vs, hvalues, rfl⟩
    obtain ⟨hsource, hvalues⟩ := Fields.values?_cons_eq_some.1 hvalues
    obtain ⟨hinstance, hvalues⟩ := Fields.values?_cons_eq_some.1 hvalues
    obtain ⟨hfunction, hvalues⟩ := Fields.values?_cons_eq_some.1 hvalues
    exact ⟨hsource, hinstance, hfunction, (Fields.values?_cons_eq_some.1 hvalues).1⟩
  · rintro ⟨hsource, hinstance, hfunction, hretain⟩
    exact ⟨_, Fields.values?_cons hsource (Fields.values?_cons hinstance
      (Fields.values?_cons hfunction (Fields.values?_cons hretain rfl))), rfl⟩

theorem RouterSettings.value?_eq_some (h : Config.Tidy (.mapping es)) {c : RouterSettings} :
    RouterSettings.form.value? r (.mapping es) = some c ↔
      Definition.form.valueOr? r none (es.get? "definition") = some c.definition ∧
      FeedVersion.form.valueOr? r (some .current) (es.get? "feed_version") = some c.feedVersion ∧
      UnknownOpcodes.form.valueOr? r (some .drop) (es.get? "unknown_opcodes") =
        some c.unknownOpcodes := by
  refine (Schema.value?_record_eq_some (by decide) h.hasDistinctNames).trans ⟨?_, ?_⟩
  · rintro ⟨vs, hvalues, rfl⟩
    obtain ⟨hdefinition, hvalues⟩ := Fields.values?_cons_eq_some.1 hvalues
    obtain ⟨hversion, hvalues⟩ := Fields.values?_cons_eq_some.1 hvalues
    exact ⟨hdefinition, hversion, (Fields.values?_cons_eq_some.1 hvalues).1⟩
  · rintro ⟨hdefinition, hversion, hunknown⟩
    exact ⟨_, Fields.values?_cons hdefinition (Fields.values?_cons hversion
      (Fields.values?_cons hunknown rfl)), rfl⟩

theorem ReplaySettings.value?_eq_some (h : Config.Tidy (.mapping es)) {c : ReplaySettings} :
    ReplaySettings.form.value? .configuration (.mapping es) = some c ↔
      (∀ e ∈ es, ownFields.has e.1 = false → e.2.inWords = true) ∧
      (Ring.form.valueOr? .configuration (some {}) (es.get? "topology") = some c.topology ∧
        (Form.list .text).valueOr? .configuration none (es.get? "key_fields") = some c.keyFields ∧
        (Form.word .size).valueOr? .configuration (some 64) (es.get? "flush_every") =
          some c.flushEvery) ∧
      RouterSettings.form.value? .leftOver (.mapping es) = some c.router := by
  have hform : form = .overlay "ReplayConfiguration" ownFields RouterSettings.form _ := rfl
  have hwords : Schema.entriesInWords (ownFields.leftOver es) = true ↔
      ∀ e ∈ es, ownFields.has e.1 = false → e.2.inWords = true := by
    rw [Schema.entriesInWords_eq_all, Fields.leftOver, List.all_filter, List.all_eq_true]
    refine forall₂_congr fun e _ => ?_
    cases ownFields.has e.1 <;> simp
  rw [hform, Schema.value?_overlay _ _ _ (by decide) h.hasDistinctNames,
    RouterSettings.value?_leftOver _ h, ← hwords]
  split
  · next hin =>
    simp only [hin, true_and, Option.bind_eq_some_iff, Option.map_eq_some_iff]
    constructor
    · rintro ⟨vs, hvalues, router, hrouter, rfl⟩
      obtain ⟨htopology, hvalues⟩ := Fields.values?_cons_eq_some.1 hvalues
      obtain ⟨hkeys, hvalues⟩ := Fields.values?_cons_eq_some.1 hvalues
      exact ⟨⟨htopology, hkeys, (Fields.values?_cons_eq_some.1 hvalues).1⟩, hrouter⟩
    · rintro ⟨⟨htopology, hkeys, hflush⟩, hrouter⟩
      exact ⟨_, Fields.values?_cons htopology (Fields.values?_cons hkeys
        (Fields.values?_cons hflush rfl)), _, hrouter, rfl⟩
  · next hin => simp [hin]

end Records

/-! ### Texts -/

section Texts

variable {r : Reading} {es es' : Entries}

theorem Schema.text_value?_merge (rule : Config.SequenceRule) (old d : Datum) :
    Form.text.value? r (Config.merge rule old d) = Form.text.value? r d := by
  cases d with
  | mapping entries => cases old <;> rfl
  | sequence items => cases rule <;> cases old <;> rfl
  | _ => rfl

namespace Definition.TextField

variable {field : TextField} {d : Datum}

theorem value?_set (h : Config.Tidy (.mapping es)) (h' : Config.Tidy (.mapping es'))
    (hd : es'.get? field.name = some d)
    (hothers : ∀ n, n ≠ field.name → es'.get? n = es.get? n) {s : String}
    (hs : Form.text.value? r d = some s) {c : Definition}
    (hc : Definition.form.value? r (.mapping es) = some c) :
    Definition.form.value? r (.mapping es') = some (field.set s c) := by
  rw [Definition.value?_eq_some h] at hc
  rw [Definition.value?_eq_some h']
  obtain ⟨hsource, hinstance, hfunction, hretain⟩ := hc
  cases field with
  | source =>
    rw [hothers "instance_id" (by decide), hothers "function_name" (by decide),
      hothers "retain_deleted_xattr" (by decide)]
    refine ⟨?_, hinstance, hfunction, hretain⟩
    rw [show es'.get? "source" = some d from hd]
    exact hs
  | functionName =>
    rw [hothers "instance_id" (by decide), hothers "source" (by decide),
      hothers "retain_deleted_xattr" (by decide)]
    refine ⟨hsource, hinstance, ?_, hretain⟩
    rw [show es'.get? "function_name" = some d from hd]
    exact hs

theorem value?_get (h : Config.Tidy (.mapping es)) (hd : es.get? field.name = some d)
    {c : Definition} (hc : Definition.form.value? r (.mapping es) = some c) :
    Form.text.value? r d = some (field.get c) := by
  obtain ⟨hsource, -, hfunction, -⟩ := (Definition.value?_eq_some h).1 hc
  cases field with
  | source =>
    rw [show es.get? "source" = some d from hd] at hsource
    exact hsource
  | functionName =>
    rw [show es.get? "function_name" = some d from hd] at hfunction
    exact hfunction

end Definition.TextField

/-! ### Settings with a text set -/

variable {field : Definition.TextField} {v : Datum} {s : String}

theorem RouterSettings.value?_setText (htidy : Config.Tidy (.mapping es))
    (htidy' : Config.Tidy (.mapping es'))
    (h : SetAt field.path (.text s) (.mapping es) (.mapping es'))
    (hmapped : Config.hasMappedDefinition es = true) {c : RouterSettings}
    (hc : RouterSettings.form.value? r (.mapping es) = some c) :
    RouterSettings.form.value? r (.mapping es') = some (c.setText field s) := by
  obtain ⟨inner', hinner', hfield, hinside⟩ := h.exists_inner
  obtain ⟨d, hd, hmapping⟩ := (Option.any_eq_true _ _).1 hmapped
  obtain ⟨inner, rfl⟩ : ∃ inner, d = .mapping inner := by
    cases d <;> first | exact ⟨_, rfl⟩ | cases hmapping
  have hothers : ∀ n, n ≠ field.name → Entries.get? inner' n = Entries.get? inner n := by
    intro n hn
    rw [hinside n hn]
    simp [Config.Path.find?, hd]
  obtain ⟨hdefinition, hversion, hunknown⟩ := (RouterSettings.value?_eq_some htidy).1 hc
  rw [hd] at hdefinition
  refine (RouterSettings.value?_eq_some htidy').2 ⟨?_, ?_, ?_⟩
  · rw [hinner']
    exact Definition.TextField.value?_set (htidy.get? hd) (htidy'.get? hinner') hfield hothers rfl
      hdefinition
  · rw [h.get?_of_ne (by decide)]
    exact hversion
  · rw [h.get?_of_ne (by decide)]
    exact hunknown

/-- The definition that a text is set in holds that text and what was there before, of which there
is something only if it was a mapping. -/
theorem RouterSettings.value?_getText (htidy' : Config.Tidy (.mapping es'))
    (h : SetAt field.path v (.mapping es) (.mapping es')) {c : RouterSettings}
    (hc : RouterSettings.form.value? r (.mapping es') = some c) :
    Form.text.value? r v = some (field.get c.definition) ∧
      Config.hasMappedDefinition es = true := by
  obtain ⟨inner, hinner, hfield, hinside⟩ := h.exists_inner
  obtain ⟨hdefinition, -, -⟩ := (RouterSettings.value?_eq_some htidy').1 hc
  rw [hinner] at hdefinition
  have htidy := htidy'.get? hinner
  refine ⟨Definition.TextField.value?_get htidy hfield hdefinition, ?_⟩
  obtain ⟨-, hinstance, -, -⟩ := (Definition.value?_eq_some htidy).1 hdefinition
  have hname : "instance_id" ≠ field.name := by cases field <;> decide
  rw [hinside _ hname] at hinstance
  rw [Config.hasMappedDefinition]
  cases hd : es.get? "definition" with
  | none => simp [Config.Path.find?, hd, Form.valueOr?] at hinstance
  | some d => cases d with
    | mapping entries => rfl
    | _ => simp [Config.Path.find?, hd, Form.valueOr?] at hinstance

theorem inWords_of_setAt (keep : String → Bool) (htidy' : Config.Tidy (.mapping es'))
    (h : SetAt field.path (.text s) (.mapping es) (.mapping es'))
    (hkeep : keep "definition" = true)
    (hwords : ∀ e ∈ es, keep e.1 = true → e.2.inWords = true) :
    ∀ e ∈ es', keep e.1 = true → e.2.inWords = true := by
  rintro ⟨n, d⟩ he hn
  have hd : es'.get? n = some d := Config.Entries.get?_of_mem htidy'.sorted he
  by_cases hname : n = "definition"
  · subst hname
    obtain ⟨inner, hinner, hfield, hinside⟩ := h.exists_inner
    obtain rfl : d = .mapping inner := Option.some.inj (hd.symm.trans hinner)
    rw [Datum.inWords, Schema.entriesInWords_eq_all, List.all_eq_true]
    rintro ⟨m, d⟩ hm
    have hd : Entries.get? inner m = some d :=
      Config.Entries.get?_of_mem (htidy'.get? hinner).sorted hm
    by_cases hfieldname : m = field.name
    · subst hfieldname
      obtain rfl : d = .text s := Option.some.inj (hd.symm.trans hfield)
      rfl
    · rw [hinside m hfieldname] at hd
      obtain ⟨old, hold, hd⟩ := Option.bind_eq_some_iff.1 hd
      cases old with
      | mapping before =>
        have hbefore := hwords _ (Config.Entries.mem_of_get? hold) hkeep
        rw [Datum.inWords, Schema.entriesInWords_eq_all, List.all_eq_true] at hbefore
        obtain ⟨d', hd', hsame⟩ := Option.bind_eq_some_iff.1 hd
        cases hsame
        exact hbefore _ (Config.Entries.mem_of_get? hd')
      | _ => cases hd
  · rw [h.get?_of_ne hname] at hd
    exact hwords _ (Config.Entries.mem_of_get? hd) hn

theorem ReplaySettings.value?_setText (htidy : Config.Tidy (.mapping es))
    (htidy' : Config.Tidy (.mapping es'))
    (h : SetAt field.path (.text s) (.mapping es) (.mapping es'))
    (hmapped : Config.hasMappedDefinition es = true) {c : ReplaySettings}
    (hc : ReplaySettings.form.value? .configuration (.mapping es) = some c) :
    ReplaySettings.form.value? .configuration (.mapping es') = some (c.setText field s) := by
  obtain ⟨hwords, hown, hrouter⟩ := (ReplaySettings.value?_eq_some htidy).1 hc
  refine (ReplaySettings.value?_eq_some htidy').2 ⟨?_, ?_, ?_⟩
  · have hkept := inWords_of_setAt (fun n => !ownFields.has n) htidy' h rfl
      fun e he hn => hwords e he (by simpa using hn)
    exact fun e he hn => hkept e he (by simpa using hn)
  · rw [h.get?_of_ne (by decide), h.get?_of_ne (by decide), h.get?_of_ne (by decide)]
    exact hown
  · exact RouterSettings.value?_setText htidy htidy' h hmapped hrouter

end Texts

/-! ### Variables over files -/

/-- **Texts set by variables.** Over files, let a variable be added for a text of the definition,
and let no other variable touch that text. The layers are loaded as they were without it. If its
value is no literal and the definition was a mapping, a configuration that could be read before is
read with just that text in the field and all else as it was. If its value is a literal, or the
definition was no mapping, no configuration that can be read has that text in the field. -/
theorem Definition.TextField.set_by_variable (field : Definition.TextField) (p name s : String)
    (files : List Source) (before after : Environment) (hfiles : ∀ f ∈ files, f.isFile = true)
    (hname : Environment.path? (Environment.normalPrefix p) name = some field.path)
    (hs : Text.IsTrimmed s.toList)
    (hothers : ∀ e ∈ before ++ after, ¬ field.path.Touches
      (.mapping (Environment.entriesOf (Environment.normalPrefix p) e.1 e.2)))
    {l : Layers} (hl : Layers.load (before ++ after) (files ++ [.environment p]) = .ok l) :
    ∃ l', Layers.load (before ++ (name, s) :: after) (files ++ [.environment p]) = .ok l' ∧
      (Config.Inline.isLiteral s = false → Config.hasMappedDefinition l.merged = true →
        (∀ c, l.extract RouterSettings.form = .ok c →
          l'.extract RouterSettings.form = .ok (c.setText field s)) ∧
        ∀ c, l.extract ReplaySettings.form = .ok c →
          l'.extract ReplaySettings.form = .ok (c.setText field s)) ∧
      (Config.Inline.isLiteral s = true ∨ Config.hasMappedDefinition l.merged = false →
        (∀ c, l'.extract RouterSettings.form = .ok c → field.get c.definition ≠ s) ∧
        ∀ c, l'.extract ReplaySettings.form = .ok c → field.get c.router.definition ≠ s) := by
  obtain ⟨l', hl', -⟩ := Layers.exists_load (before ++ (name, s) :: after) hl
  have hset := Layers.setAt_merged (P := field.path) hfiles (List.cons_ne_nil _ _) hname s hothers
    hl hl'
  generalize field.path.find? (.mapping (Config.held files)) = old at hset
  have htidy := Layers.tidy_merged hl
  have htidy' := Layers.tidy_merged hl'
  refine ⟨l', hl', fun hliteral hmapped => ?_, fun hbar => ?_⟩
  · rw [Config.Inline.read_of_not_isLiteral hs hliteral] at hset
    have htext : SetAt field.path (.text s) (.mapping l.merged) (.mapping l'.merged) := by
      cases old <;> exact hset
    simp only [Layers.extract_eq_ok]
    exact ⟨fun c => RouterSettings.value?_setText htidy htidy' htext hmapped,
      fun c => ReplaySettings.value?_setText htidy htidy' htext hmapped⟩
  -- no reading of a literal is the text, and no field is set without a mapped definition
  · have hnever : ∀ (r : Reading) (c : RouterSettings),
        RouterSettings.form.value? r (.mapping l'.merged) = some c →
          field.get c.definition ≠ s := by
      rintro r c hc rfl
      obtain ⟨htext, hmapped⟩ := RouterSettings.value?_getText htidy' hset hc
      rcases hbar with hliteral | hunmapped
      · refine Config.Inline.value?_read_of_isLiteral r hs hliteral (Eq.trans ?_ htext)
        cases old with
        | none => rfl
        | some old => exact (Schema.text_value?_merge .join old _).symm
      · rw [hmapped] at hunmapped
        cases hunmapped
    simp only [Layers.extract_eq_ok]
    exact ⟨fun c => hnever .configuration c, fun c hc => hnever .leftOver c.router
      ((ReplaySettings.value?_eq_some htidy').1 hc).2.2⟩

/-- A file with the definition `definition` and key fields. -/
def definitionFile (definition : String) : Source :=
  Config.jsonFile ("\x7b\"definition\":" ++ definition ++ ",\"key_fields\":[\"b\"]\x7d")

/-- The same file, and the environment over it. -/
def definitionSources (definition : String) : List Source :=
  [definitionFile definition, .environment "dataport"]

def mappedDefinition : String := "\x7b\"source\":\"a\",\"instance_id\":3\x7d"

/-- A text that begins like a truth value is no literal, and another variable stays in effect. -/
theorem Definition.TextField.set_by_variable_word :
    ∃ l c l', Layers.load [("DATAPORT_DEFINITION__INSTANCE_ID", "5")]
        (definitionSources mappedDefinition) = .ok l ∧
      l.extract ReplaySettings.form = .ok c ∧ c.router.definition.instanceId = 5 ∧
      Layers.load [("DATAPORT_DEFINITION__INSTANCE_ID", "5"),
        ("DATAPORT_DEFINITION__SOURCE", "true story")] (definitionSources mappedDefinition) =
          .ok l' ∧
      l'.extract ReplaySettings.form = .ok (c.setText .source "true story") := by
  have hload : (Layers.load [("DATAPORT_DEFINITION__INSTANCE_ID", "5")]
      (definitionSources mappedDefinition)).toOption.any (fun l =>
        Config.hasMappedDefinition l.merged &&
          (l.extract ReplaySettings.form).toOption.any fun c =>
            c.router.definition.instanceId == 5) = true := by
    decide +kernel
  obtain ⟨l, hl, hread⟩ := exists_of_any_toOption hload
  obtain ⟨hmapped, hread⟩ := Bool.and_eq_true_iff.1 hread
  obtain ⟨c, hc, hinstance⟩ := exists_of_any_toOption hread
  obtain ⟨l', hl', htext, -⟩ := set_by_variable .source "dataport"
    "DATAPORT_DEFINITION__SOURCE" "true story" [definitionFile mappedDefinition]
    [("DATAPORT_DEFINITION__INSTANCE_ID", "5")] [] (by decide) (by decide +kernel)
    (by decide +kernel) (by decide +kernel) hl
  exact ⟨l, c, l', hl, hc, eq_of_beq hinstance, hl', (htext (by decide +kernel) hmapped).2 c hc⟩

/-- A number is not taken for a text, and a definition that is a sequence does not keep its other
items. -/
theorem Definition.TextField.not_set :
    (∃ l c l', Layers.load [] (definitionSources mappedDefinition) = .ok l ∧
      l.extract RouterSettings.form = .ok c ∧
      Layers.load [("DATAPORT_DEFINITION__SOURCE", "123")]
        (definitionSources mappedDefinition) = .ok l' ∧
      ∀ c', l'.extract RouterSettings.form ≠ .ok c') ∧
    ∃ l c l', Layers.load [] (definitionSources "[\"a\",3]") = .ok l ∧
      l.extract RouterSettings.form = .ok c ∧
      Layers.load [("DATAPORT_DEFINITION__SOURCE", "orders")]
        (definitionSources "[\"a\",3]") = .ok l' ∧
      ∀ c', l'.extract RouterSettings.form ≠ .ok c' := by
  have hfails : ∀ {env : Environment} {definition : String},
      (Layers.load [] (definitionSources definition)).toOption.any (fun l =>
        (l.extract RouterSettings.form).toOption.isSome) = true →
      (Layers.load env (definitionSources definition)).toOption.any (fun l =>
        (l.extract RouterSettings.form).toOption.isNone) = true →
      ∃ l c l', Layers.load [] (definitionSources definition) = .ok l ∧
        l.extract RouterSettings.form = .ok c ∧
        Layers.load env (definitionSources definition) = .ok l' ∧
        ∀ c', l'.extract RouterSettings.form ≠ .ok c' := by
    intro env definition h h'
    obtain ⟨l, hl, hsome⟩ := exists_of_any_toOption h
    obtain ⟨l', hl', hnone⟩ := exists_of_any_toOption h'
    obtain ⟨c, hc⟩ := Option.isSome_iff_exists.1 hsome
    refine ⟨l, c, l', hl, Schema.toOption_eq_some.1 hc, hl', fun c' hc' => ?_⟩
    rw [hc'] at hnone
    cases hnone
  exact ⟨hfails (by decide +kernel) (by decide +kernel),
    hfails (by decide +kernel) (by decide +kernel)⟩

end IndexFeed
