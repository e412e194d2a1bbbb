import Mathlib.Data.List.Forall2
import ViewTemplates.DirectivesFile
import ViewTemplates.Proofs.Directive.Matching
import ViewTemplates.Proofs.Runs

/-!
Registering the entries of a directives file. An entry stands for one directive, or it offends: by
its template fields, or else by its selector. A file is taken over as a whole, each directive at the
place of its entry, or refused for its configuration, or else for its first entry that offends.
-/

namespace ViewTemplates

namespace Entry

section
variable (files : Files) (directory : String) (entry : Entry)

/-- Only components have a template, and exactly one: in the entry, or in a file that can be read. -/
structure TemplateSound : Prop where
  bare : entry.kind ≠ .component → entry.template = none ∧ entry.templateUrl = none
  chosen : entry.kind = .component → entry.template.isSome ≠ entry.templateUrl.isSome
  readable : ∀ url, entry.templateUrl = some url →
    ∃ content, files (Path.join directory url) = some content

structure Sound : Prop extends TemplateSound files directory entry where
  selector : ∃ selectors, Selector.parse entry.selector = .ok selectors

/-- What kind of directive an entry stands for, the markup of a component included. -/
inductive KindStands : DirectiveKind → Prop where
  | decorator : entry.kind = .decorator → KindStands .decorator
  | template : entry.kind = .template → KindStands .template
  | inline {markup : String} : entry.kind = .component → entry.template = some markup →
      KindStands (.component (.inline markup))
  | file {url content : String} : entry.kind = .component → entry.templateUrl = some url →
      files (Path.join directory url) = some content →
      KindStands (.component (.inline content))

/-- The directive that an entry stands for. -/
structure Stands (directive : Directive) : Prop where
  name : directive.name = entry.name
  selector : directive.selector = entry.selector
  kind : entry.KindStands files directory directive.kind

/-- What is wrong with the template fields of an entry. -/
inductive TemplateOffends : RegistrationError → Prop where
  | stray : entry.kind ≠ .component → entry.template.isSome ∨ entry.templateUrl.isSome →
      TemplateOffends (.strayTemplate entry.name)
  | choice : entry.kind = .component → entry.template.isSome = entry.templateUrl.isSome →
      TemplateOffends (.templateChoice entry.name)
  | unreadable {url : String} : entry.kind = .component → entry.template = none →
      entry.templateUrl = some url → files (Path.join directory url) = none →
      TemplateOffends (.unreadable entry.name (Path.join directory url))

/-- What is wrong with an entry; its selector is judged after its template fields. -/
inductive Offends : RegistrationError → Prop where
  | template {error : RegistrationError} : entry.TemplateOffends files directory error →
      Offends error
  | selector {fault : Selector.Fault} : entry.TemplateSound files directory →
      Selector.parse entry.selector = .error fault →
      Offends (.directive entry.name (.invalidSelector entry.selector fault))

end

variable {files : Files} {directory : String} {entry : Entry}

/-! One entry. -/

theorem markup_of_chosen (chosen : entry.template.isSome ≠ entry.templateUrl.isSome)
    (readable : ∀ url, entry.templateUrl = some url →
      ∃ content, files (Path.join directory url) = some content) :
    ∃ markup, entry.markup files directory = .ok markup ∧
      (entry.template = some markup ∨ ∃ url, entry.templateUrl = some url ∧
        files (Path.join directory url) = some markup) := by
  rw [markup]
  cases template : entry.template with
  | some markup =>
      cases given : entry.templateUrl with
      | some url => exact absurd (by rw [template, given]; rfl) chosen
      | none => exact ⟨markup, rfl, .inl rfl⟩
  | none =>
      cases given : entry.templateUrl with
      | none => exact absurd (by rw [template, given]) chosen
      | some url =>
          obtain ⟨content, found⟩ := readable url given
          exact ⟨content, by simp only [found], .inr ⟨url, rfl, found⟩⟩

theorem markup_of_not_chosen (same : entry.template.isSome = entry.templateUrl.isSome) :
    entry.markup files directory = .error (.templateChoice entry.name) := by
  rw [markup]
  cases template : entry.template <;> cases url : entry.templateUrl
  case none.none => rfl
  case some.some => rfl
  all_goals
    rw [template, url] at same
    cases same

theorem directive_of_templateOffends {error : RegistrationError}
    (offends : entry.TemplateOffends files directory error) :
    entry.directive files directory = .error error := by
  cases offends with
  | stray other given =>
      have found : (entry.template.isSome || entry.templateUrl.isSome) = true :=
        Bool.or_eq_true_iff.mpr given
      rw [directive]
      cases kind : entry.kind with
      | component => exact absurd kind other
      | decorator => exact if_pos found
      | template => exact if_pos found
  | choice component same => rw [directive, component, markup_of_not_chosen same]
  | unreadable component noTemplate url missing =>
      rw [directive, component, markup, noTemplate, url]
      simp only [missing]

theorem directive_of_templateSound (sound : entry.TemplateSound files directory) :
    ∃ directive, entry.directive files directory = .ok directive ∧
      entry.Stands files directory directive := by
  have empty (other : entry.kind ≠ .component) :
      (entry.template.isSome || entry.templateUrl.isSome) = false := by
    obtain ⟨template, url⟩ := sound.bare other
    rw [template, url]
    rfl
  rw [directive]
  cases kind : entry.kind with
  | decorator =>
      refine ⟨⟨entry.name, entry.selector, .decorator⟩, ?_, rfl, rfl, .decorator kind⟩
      rw [empty (by rw [kind]; nofun)]
      rfl
  | template =>
      refine ⟨⟨entry.name, entry.selector, .template⟩, ?_, rfl, rfl, .template kind⟩
      rw [empty (by rw [kind]; nofun)]
      rfl
  | component =>
      obtain ⟨markup, found, origin⟩ := markup_of_chosen (sound.chosen kind) sound.readable
      refine ⟨⟨entry.name, entry.selector, .component (.inline markup)⟩, by rw [found], rfl, rfl, ?_⟩
      rcases origin with template | ⟨url, given, content⟩
      · exact .inline kind template
      · exact .file kind given content

theorem templateSound_or_offends (files : Files) (directory : String) (entry : Entry) :
    entry.TemplateSound files directory ∨
      ∃ error, entry.TemplateOffends files directory error := by
  by_cases component : entry.kind = .component
  · by_cases same : entry.template.isSome = entry.templateUrl.isSome
    · exact .inr ⟨_, .choice component same⟩
    · cases given : entry.templateUrl with
      | none =>
          refine .inl ⟨fun other => absurd component other, fun _ => same, ?_⟩
          rw [given]
          nofun
      | some url =>
          cases found : files (Path.join directory url) with
          | none =>
              have noTemplate : entry.template = none := by
                rw [given] at same
                simpa using same
              exact .inr ⟨_, .unreadable component noTemplate given found⟩
          | some content =>
              refine .inl ⟨fun other => absurd component other, fun _ => same, ?_⟩
              intro other again
              rw [given] at again
              cases again
              exact ⟨content, found⟩
  · by_cases given : entry.template.isSome ∨ entry.templateUrl.isSome
    · exact .inr ⟨_, .stray component given⟩
    · have bare : entry.template = none ∧ entry.templateUrl = none := by simpa using given
      refine .inl ⟨fun _ => bare, fun kind => absurd kind component, ?_⟩
      rw [bare.2]
      nofun

/-- An entry can be registered unless it offends. -/
theorem sound_or_offends (files : Files) (directory : String) (entry : Entry) :
    entry.Sound files directory ∨ ∃ error, entry.Offends files directory error := by
  rcases templateSound_or_offends files directory entry with sound | ⟨error, offends⟩
  · cases parsed : Selector.parse entry.selector with
    | ok selectors => exact .inl ⟨sound, selectors, parsed⟩
    | error fault => exact .inr ⟨_, .selector sound parsed⟩
  · exact .inr ⟨error, .template offends⟩

variable {registry : Registry}

theorem registerAll_of_offends {error : RegistrationError}
    (offends : entry.Offends files directory error) (rest : List Entry) :
    registerAll files directory registry (entry :: rest) = .error error := by
  rw [registerAll]
  cases offends with
  | template offends => rw [directive_of_templateOffends offends]
  | selector sound unparsed =>
      obtain ⟨directive, given, stands⟩ := directive_of_templateSound sound
      rw [given]
      simp only [Registry.register, stands.selector, unparsed]

theorem registerAll_of_sound (sound : entry.Sound files directory) :
    ∃ directive : Directive, entry.Stands files directory directive ∧
      directive.isReadable = true ∧ ∀ (registry : Registry) (rest : List Entry),
        registerAll files directory registry (entry :: rest) =
          registerAll files directory (registry.adding directive) rest := by
  obtain ⟨directive, given, stands⟩ := directive_of_templateSound sound.toTemplateSound
  obtain ⟨selectors, parsed⟩ := sound.selector
  rw [← stands.selector] at parsed
  refine ⟨directive, stands, by rw [Directive.isReadable, parsed], fun registry rest => ?_⟩
  rw [registerAll, given]
  simp only [Registry.adding, Registry.register, parsed]

/-! All entries. -/

/-- Entries that can be registered are, and the others come after them. -/
theorem registerAll_append {entries : List Entry}
    (sound : ∀ entry ∈ entries, entry.Sound files directory) :
    ∃ directives, List.Forall₂ (fun entry => entry.Stands files directory) entries directives ∧
      (∀ directive ∈ directives, directive.isReadable = true) ∧
      ∀ (registry : Registry) (rest : List Entry),
        registerAll files directory registry (entries ++ rest) =
          registerAll files directory (registry.addingAll directives) rest := by
  induction entries with
  | nil => exact ⟨[], .nil, nofun, fun _ _ => rfl⟩
  | cons entry later induction =>
      obtain ⟨here, there⟩ := List.forall_mem_cons.mp sound
      obtain ⟨directive, stands, readable, step⟩ := registerAll_of_sound here
      obtain ⟨directives, aligned, allReadable, run⟩ := induction there
      refine ⟨directive :: directives, .cons stands aligned,
        List.forall_mem_cons.mpr ⟨readable, allReadable⟩, fun registry rest => ?_⟩
      rw [List.cons_append, step, run]
      rfl

/-- The first entry that offends, after entries that can be registered. -/
def FirstOffends (files : Files) (directory : String) (entries : List Entry)
    (error : RegistrationError) : Prop :=
  ∃ earlier entry later, entries = earlier ++ entry :: later ∧
    (∀ entry ∈ earlier, entry.Sound files directory) ∧ entry.Offends files directory error

theorem sound_or_firstOffends (files : Files) (directory : String) (entries : List Entry) :
    (∀ entry ∈ entries, entry.Sound files directory) ∨
      ∃ error, FirstOffends files directory entries error := by
  induction entries with
  | nil => exact .inl nofun
  | cons entry rest induction =>
      rcases sound_or_offends files directory entry with sound | ⟨error, offends⟩
      · rcases induction with all | ⟨error, earlier, other, later, rfl, before, offends⟩
        · exact .inl (List.forall_mem_cons.mpr ⟨sound, all⟩)
        · exact .inr ⟨error, entry :: earlier, other, later, rfl,
            List.forall_mem_cons.mpr ⟨sound, before⟩, offends⟩
      · exact .inr ⟨error, [], entry, rest, rfl, nofun, offends⟩

theorem registerAll_of_firstOffends {entries : List Entry} {error : RegistrationError}
    (first : FirstOffends files directory entries error) :
    registerAll files directory registry entries = .error error := by
  obtain ⟨earlier, entry, later, rfl, sound, offends⟩ := first
  obtain ⟨directives, _, _, run⟩ := registerAll_append sound
  rw [run, registerAll_of_offends offends]

theorem registerAll_of_forall_sound {entries : List Entry}
    (sound : ∀ entry ∈ entries, entry.Sound files directory) :
    ∃ directives, List.Forall₂ (fun entry => entry.Stands files directory) entries directives ∧
      (∀ directive ∈ directives, directive.isReadable = true) ∧
      registerAll files directory registry entries = .ok (registry.addingAll directives) := by
  obtain ⟨directives, aligned, readable, run⟩ := registerAll_append sound
  refine ⟨directives, aligned, readable, ?_⟩
  have whole := run registry []
  rw [List.append_nil] at whole
  rw [whole, registerAll]

end Entry

namespace DirectivesFile

/-- The registry has the directives of the entries, each at the place of its entry. -/
structure TakenOver (file : DirectivesFile) (files : Files) (directory : String)
    (registry : Registry) : Prop where
  size : registry.size = file.entries.length
  stands : ∀ index entry, file.entries[index]? = some entry →
    ∃ directive, registry.get? index = some directive ∧ entry.Stands files directory directive
  registered : registry = Registry.empty.addingAll registry.directives

variable {file : DirectivesFile} {files : Files} {directory : String}

theorem takenOver_addingAll {directives : List Directive}
    (aligned : List.Forall₂ (fun entry => entry.Stands files directory) file.entries directives)
    (readable : ∀ directive ∈ directives, directive.isReadable = true) :
    file.TakenOver files directory (Registry.empty.addingAll directives) := by
  have kept : (Registry.empty.addingAll directives).directives = directives := by
    rw [Registry.directives_addingAll, List.filter_eq_self.mpr readable]
    rfl
  constructor
  case size => rw [Registry.size, kept, aligned.length_eq]
  case stands =>
    intro index entry found
    obtain ⟨bound, rfl⟩ := List.getElem?_eq_some_iff.mp found
    obtain ⟨same, each⟩ := List.forall₂_iff_get.mp aligned
    rw [Registry.get?, kept]
    exact ⟨_, List.getElem?_eq_getElem (same ▸ bound), each index bound _⟩
  case registered => rw [kept]

theorem registry_of_invalid {fault : ConfigFault} (invalid : file.config.validate = .error fault) :
    file.registry files directory = .error (.config fault) := by
  rw [registry, invalid]

theorem registry_of_valid (valid : file.config.validate = .ok ()) :
    file.registry files directory = Entry.registerAll files directory .empty file.entries := by
  rw [registry, valid]

/-- A file is refused for its configuration, or else for its first entry that offends. -/
def Refused (file : DirectivesFile) (files : Files) (directory : String)
    (error : RegistrationError) : Prop :=
  (∃ fault, file.config.validate = .error fault ∧ error = .config fault) ∨
    file.config.validate = .ok () ∧ Entry.FirstOffends files directory file.entries error

theorem registry_of_refused {error : RegistrationError}
    (refused : file.Refused files directory error) :
    file.registry files directory = .error error := by
  rcases refused with ⟨fault, invalid, rfl⟩ | ⟨valid, first⟩
  · exact registry_of_invalid invalid
  · rw [registry_of_valid valid, Entry.registerAll_of_firstOffends first]

theorem registry_of_sound (valid : file.config.validate = .ok ())
    (sound : ∀ entry ∈ file.entries, entry.Sound files directory) :
    ∃ registry, file.registry files directory = .ok registry ∧
      file.TakenOver files directory registry := by
  obtain ⟨directives, aligned, readable, run⟩ := Entry.registerAll_of_forall_sound sound
  exact ⟨_, (registry_of_valid valid).trans run, takenOver_addingAll aligned readable⟩

theorem sound_or_refused (file : DirectivesFile) (files : Files) (directory : String) :
    (file.config.validate = .ok () ∧ ∀ entry ∈ file.entries, entry.Sound files directory) ∨
      ∃ error, file.Refused files directory error := by
  cases validated : file.config.validate with
  | error fault => exact .inr ⟨_, .inl ⟨fault, validated, rfl⟩⟩
  | ok _ =>
      rcases Entry.sound_or_firstOffends files directory file.entries with sound | ⟨error, first⟩
      · exact .inl ⟨rfl, sound⟩
      · exact .inr ⟨error, .inr ⟨validated, first⟩⟩

/-- A directives file is taken over exactly if its configuration is valid and each of its entries
can be registered, and then as it stands. Otherwise the error is that of the configuration, or else
of the first entry that offends. -/
theorem registry_outcome (file : DirectivesFile) (files : Files) (directory : String) :
    ((∃ registry, file.registry files directory = .ok registry) ↔
      file.config.validate = .ok () ∧ ∀ entry ∈ file.entries, entry.Sound files directory) ∧
    (∀ registry, file.registry files directory = .ok registry →
      file.TakenOver files directory registry) ∧
    ∀ error, file.registry files directory = .error error ↔
      file.Refused files directory error := by
  rcases sound_or_refused file files directory with ⟨valid, sound⟩ | ⟨error, refused⟩
  · obtain ⟨registry, run, taken⟩ := registry_of_sound valid sound
    refine ⟨⟨fun _ => ⟨valid, sound⟩, fun _ => ⟨registry, run⟩⟩, ?_, fun error => ?_⟩
    · intro other again
      rw [run] at again
      cases again
      exact taken
    · refine ⟨fun failed => ?_, registry_of_refused⟩
      rw [run] at failed
      cases failed
  · have run := registry_of_refused refused
    refine ⟨⟨?_, ?_⟩, ?_, fun other => ⟨fun again => ?_, registry_of_refused⟩⟩
    · rintro ⟨registry, success⟩
      rw [run] at success
      cases success
    · rintro ⟨valid, sound⟩
      obtain ⟨registry, success, _⟩ := registry_of_sound valid sound
      exact ⟨registry, success⟩
    · intro registry success
      rw [run] at success
      cases success
    · rw [run] at again
      cases again
      exact refused

/-! Two entries that can be registered, and the same with two more that cannot. -/

def cardFile : DirectivesFile :=
  ⟨.default, [⟨"Mark", "[mark]", .decorator, none, none⟩,
    ⟨"Card", "card", .component, none, some "card.html"⟩]⟩

def cardFiles : Files := fun path => if path = "cards/card.html" then some "<b></b>" else none

def strayFile : DirectivesFile :=
  { cardFile with
    entries := cardFile.entries ++ [⟨"Stray", "a b", .decorator, some "<i></i>", none⟩,
      ⟨"Panel", "panel", .component, none, none⟩] }

theorem registry_outcome_cardFile :
    (∃ registry, cardFile.registry cardFiles "cards" = .ok registry ∧
      cardFile.TakenOver cardFiles "cards" registry) ∧
    strayFile.registry cardFiles "cards" = .error (.strayTemplate "Stray") := by
  have success : ∃ registry, cardFile.registry cardFiles "cards" = .ok registry :=
    exists_of_isOk (by decide +kernel)
  obtain ⟨accepted, taken, _⟩ := registry_outcome cardFile cardFiles "cards"
  obtain ⟨_, _, refused⟩ := registry_outcome strayFile cardFiles "cards"
  obtain ⟨valid, sound⟩ := accepted.mp success
  obtain ⟨registry, run⟩ := success
  refine ⟨⟨registry, run, taken registry run⟩, (refused _).mpr (.inr ⟨valid, ?_⟩)⟩
  exact ⟨cardFile.entries, _, _, rfl, sound, .template (.stray nofun (.inl rfl))⟩

end DirectivesFile

end ViewTemplates
