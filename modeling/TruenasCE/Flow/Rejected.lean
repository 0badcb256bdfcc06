import TruenasCE.Flow.Reconfigure

/-! # Rejected submissions

Submissions of the reconfigure form that were rejected, against a flow that has seen none of them.
-/
namespace TruenasCE.Flow
open Library
variable (sanitizeHost : String → String)

def enteredPassphrases (input : UserInput String) : Option Passphrases :=
  input.passphrases.bind (fun text => if strip text.toList = [] then none else (textToPassphrases text).toOption)

/-- The submission is rejected over its passphrase text: a line is malformed, or a dataset unknown. -/
def TextRejected (site : Site) (input : UserInput String) : Prop :=
  ∃ text ∈ input.passphrases,
    match textToPassphrases text with
    | .error _ => True
    | .ok new => (site.validatePassphraseNames new).1 ≠ []

/-- The working data is the entry with the passphrases as a mapping, and so it stays. -/
def Config.enter (c : Config Passphrases) (input : UserInput String) : Config Passphrases :=
  { c with
    host := (input.host.map sanitizeHost).getD c.host
    apiKey := (popBlankApiKey input.apiKey).getD c.apiKey
    verifySsl := input.verifySsl.getD c.verifySsl
    passphrases := overlay c.passphrases (enteredPassphrases input) }

/-- The raw text of a form is in the working data. -/
def Config.HasText (c : Config PassphraseValue) : Prop := ∃ t, t ≠ "" ∧ c.passphrases = some (.text t)

theorem textToPassphrases_of_blank {text : String} (h : strip text.toList = []) : textToPassphrases text = .ok ∅ := by
  rw [textToPassphrases,h]
  rfl

theorem validatePassphraseNames_empty (site : Site) : site.validatePassphraseNames ∅ = ([],[]) := by
  unfold Site.validatePassphraseNames
  split
  · rfl
  · split
    · rfl
    · exact if_pos rfl

theorem validatePassphraseNames_accepted {site : Site} {new : Passphrases}
    (h : (site.validatePassphraseNames new).1 = []) :
    site.validatePassphraseNames new = ([],[]) := by
  unfold Site.validatePassphraseNames at h ⊢
  cases hd : site.datasets with
  | none => rfl
  | some known =>
    simp only [hd] at h ⊢
    split
    · rfl
    · rename_i hknown
      split
      · rfl
      · rename_i hunknown
        rw [if_neg hknown,if_neg hunknown] at h
        cases h

theorem applyPassphraseInput_rejected {site : Site} {input : UserInput String} {text : String}
    (hin : input.passphrases = some text)
    (h : TextRejected site input) (stored : Option PassphraseValue) :
    text ≠ "" ∧ ∃ errors placeholders, errors ≠ [] ∧
      site.applyPassphraseInput text stored = some (some (.text text),errors,placeholders) := by
  obtain ⟨text',ht,hrej⟩ := h
  rw [hin] at ht
  cases ht
  have hblank : strip text.toList ≠ [] := by
    intro hb
    simp [textToPassphrases_of_blank hb,validatePassphraseNames_empty] at hrej
  refine ⟨?_,?_⟩
  · rintro rfl
    exact hblank rfl
  · rw [Site.applyPassphraseInput,if_neg hblank]
    cases hparse : textToPassphrases text with
    | error fault => exact ⟨_,_,List.cons_ne_nil _ _,rfl⟩
    | ok new =>
      rw [hparse] at hrej
      have hne : new ≠ ∅ := ne_empty_of_textToPassphrases hblank hparse
      dsimp only
      rw [if_neg hne]
      cases hv : site.validatePassphraseNames new with
      | mk errors placeholders =>
        cases errors with
        | nil => simp [hv] at hrej
        | cons e rest => exact ⟨_,_,List.cons_ne_nil _ _,rfl⟩

theorem applyPassphraseInput_accepted {site : Site} {input : UserInput String} {text : String}
    (hin : input.passphrases = some text)
    (h : ¬ TextRejected site input) (stored : Option PassphraseValue) :
    site.applyPassphraseInput text stored =
      match enteredPassphrases input with
      | none => some (none,[],[])
      | some new => (existing stored).map (fun old => (some (.mapping (new ∪ old)),[],[])) := by
  unfold enteredPassphrases
  rw [Site.applyPassphraseInput,hin,Option.bind_some]
  by_cases hblank : strip text.toList = []
  · rw [if_pos hblank,if_pos hblank]
  · rw [if_neg hblank,if_neg hblank]
    have hok : match textToPassphrases text with
        | .error _ => False
        | .ok new => (site.validatePassphraseNames new).1 = [] := by
      by_contra hno
      refine h ⟨text,hin,?_⟩
      split at hno
      · trivial
      · exact hno
    cases hparse : textToPassphrases text with
    | error fault =>
      rw [hparse] at hok
      cases hok
    | ok new =>
      rw [hparse] at hok
      dsimp only
      rw [if_neg (ne_empty_of_textToPassphrases hblank hparse),validatePassphraseNames_accepted hok]
      rfl

variable {entry : Config Passphrases} {site : Site}

theorem checkConnectionIfChanged_cases (entry : Config Passphrases) (site : Site) (config : Config PassphraseValue) :
    (∃ errors, errors ≠ [] ∧ site.checkConnectionIfChanged config entry = (config,errors)) ∨
    ∃ id, site.checkConnectionIfChanged config entry = ({ config with systemId := id },[]) := by
  unfold Site.checkConnectionIfChanged
  split
  · unfold Site.validateConnection
    split
    · exact Or.inl ⟨_,List.cons_ne_nil _ _,rfl⟩
    · exact Or.inl ⟨_,List.cons_ne_nil _ _,rfl⟩
    · exact Or.inr ⟨_,rfl⟩
  · exact Or.inr ⟨config.systemId,rfl⟩

theorem conclude_cases (entry : Config Passphrases) (site : Site) (config : Config PassphraseValue) :
    (∃ e p, site.conclude entry config [] [] = showForm config e p) ∨
    ∃ id, site.conclude entry config [] [] =
      (.abort entry.name (entry.written { config with systemId := id }),{ config with systemId := id }) := by
  unfold Site.conclude
  rw [if_neg (by simp)]
  rcases checkConnectionIfChanged_cases entry site config with ⟨errors,hne,he⟩ | ⟨id,he⟩
  · obtain ⟨e,rest,rfl⟩ := List.exists_cons_of_ne_nil hne
    rw [he]
    exact Or.inl ⟨_,_,rfl⟩
  · rw [he]
    exact Or.inr ⟨id,rfl⟩

theorem conclude_rejected (config : Config PassphraseValue) {errors : Errors} (placeholders : Errors)
    (he : errors ≠ []) :
    site.conclude entry config errors placeholders = showForm config errors placeholders := if_pos he

variable {sanitizeHost} {input : UserInput String}

theorem reconfigure_raw (sanitizeHost : String → String) {working : Option (Config PassphraseValue)}
    {c : Config Passphrases} (hw : working.getD entry.raw = c.raw)
    (h : ¬ TextRejected site input) :
    reconfigure sanitizeHost entry working site input = site.conclude entry (c.enter sanitizeHost input).raw [] [] := by
  have hcfg : ∀ (value : Option PassphraseValue) (new : Option Passphrases), value = new.map .mapping →
    overlay c.passphrases (enteredPassphrases input) = new.or c.passphrases →
      c.raw.update (inputOf sanitizeHost input value) = (c.enter sanitizeHost input).raw := by
    intro value new hvalue hnew
    rw [Config.update,inputOf,Config.raw,Config.raw,Config.enter,hnew,hvalue]
    cases new <;> rfl
  rw [reconfigure,hw]
  cases hin : input.passphrases with
  | none =>
    dsimp only
    rw [hcfg none none rfl (by rw [enteredPassphrases,hin]; rfl)]
  | some text =>
    dsimp only
    rw [applyPassphraseInput_accepted hin h]
    cases hent : enteredPassphrases input with
    | none =>
      dsimp only
      rw [hcfg none none rfl (by rw [hent]; rfl)]
    | some new =>
      have hex : existing c.raw.passphrases = some (c.passphrases.getD ∅) := by
        rw [Config.raw]
        cases c.passphrases <;> rfl
      rw [hex]
      dsimp only [Option.map_some]
      rw [hcfg (some (.mapping (new ∪ c.passphrases.getD ∅))) (some (new ∪ c.passphrases.getD ∅)) rfl
        (by rw [hent]; rfl)]

theorem reconfigure_textRejected (sanitizeHost : String → String) (entry : Config Passphrases)
    (working : Option (Config PassphraseValue)) (h : TextRejected site input) :
    ∃ config : Config PassphraseValue, config.HasText ∧
      ∃ errors placeholders,
        reconfigure sanitizeHost entry working site input = showForm config errors placeholders := by
  obtain ⟨text,hin,_⟩ := id h
  obtain ⟨hne,errors,placeholders,he,happly⟩ := applyPassphraseInput_rejected hin h (working.getD entry.raw).passphrases
  refine ⟨(working.getD entry.raw).update (inputOf sanitizeHost input (some (.text text))),⟨text,hne,rfl⟩,
    errors,placeholders,?_⟩
  rw [reconfigure,Option.mem_def.mp hin]
  dsimp only
  rw [happly]
  exact conclude_rejected _ _ he

/-- A submission cannot get rid of the text: it is read as the stored mapping, which raises, or is kept. -/
theorem reconfigure_hasText (sanitizeHost : String → String) (site : Site) (input : UserInput String)
    {working : Option (Config PassphraseValue)} (hw : (working.getD entry.raw).HasText) :
    (reconfigure sanitizeHost entry working site input).1 = .raised ∨
    ∃ config : Config PassphraseValue, config.HasText ∧
      ((∃ e p, reconfigure sanitizeHost entry working site input = showForm config e p) ∨
      (reconfigure sanitizeHost entry working site input) = (.abort entry.name (entry.written config),config)) := by
  by_cases hrej : TextRejected site input
  · obtain ⟨config,ht,e,p,he⟩ := reconfigure_textRejected sanitizeHost entry working hrej
    exact Or.inr ⟨config,ht,Or.inl ⟨e,p,he⟩⟩
  obtain ⟨t,hne,ht⟩ := hw
  have hupd : ((working.getD entry.raw).update (inputOf sanitizeHost input none)).HasText := ⟨t,hne,ht⟩
  have hkept : ∃ config : Config PassphraseValue, config.HasText ∧
      ((∃ e p, site.conclude entry ((working.getD entry.raw).update
        (inputOf sanitizeHost input none)) [] [] = showForm config e p) ∨
      site.conclude entry ((working.getD entry.raw).update (inputOf sanitizeHost input none)) [] [] =
        (.abort entry.name (entry.written config),config)) := by
    rcases conclude_cases entry site ((working.getD entry.raw).update (inputOf sanitizeHost input none))
      with ⟨e,p,he⟩ | ⟨id,he⟩
    · exact ⟨_,hupd,Or.inl ⟨e,p,he⟩⟩
    · exact ⟨{ (working.getD entry.raw).update (inputOf sanitizeHost input none) with systemId := id },hupd,Or.inr he⟩
  unfold reconfigure
  cases hin : input.passphrases with
  | none => exact Or.inr hkept
  | some text =>
    dsimp only
    rw [applyPassphraseInput_accepted hin hrej]
    cases hent : enteredPassphrases input with
    | none => exact Or.inr hkept
    | some new =>
      have hex : existing (working.getD entry.raw).passphrases = none := by
        rw [ht]
        exact if_neg hne
      rw [hex]
      exact Or.inl rfl

variable {before : List (Site × UserInput String)} {working : Option (Config PassphraseValue)}

theorem rejectAll_raw {start : Option (Config PassphraseValue)} {c : Config Passphrases}
    (hstart : start.getD entry.raw = c.raw)
    (hfine : ∀ x ∈ before, ¬ TextRejected x.1 x.2) (h : rejectAll sanitizeHost entry start before = some working) :
    working.getD entry.raw = (before.foldl (fun c x => c.enter sanitizeHost x.2) c).raw := by
  induction before generalizing start c with
  | nil =>
    cases h
    exact hstart
  | cons x rest ih =>
    obtain ⟨site,input⟩ := x
    rw [rejectAll,reconfigure_raw sanitizeHost hstart (hfine _ (List.mem_cons_self ..))] at h
    rcases conclude_cases entry site (c.enter sanitizeHost input).raw with ⟨e,p,he⟩ | ⟨id,he⟩
    · rw [he] at h
      exact ih rfl (fun y hy => hfine y (List.mem_cons_of_mem _ hy)) h
    · rw [he] at h
      cases h

theorem rejectAll_hasText {start : Option (Config PassphraseValue)}
    (ht : (start.getD entry.raw).HasText ∨ ∃ x ∈ before, TextRejected x.1 x.2)
    (h : rejectAll sanitizeHost entry start before = some working) : (working.getD entry.raw).HasText := by
  induction before generalizing start with
  | nil =>
    cases h
    simpa using ht
  | cons x rest ih =>
    obtain ⟨site,input⟩ := x
    rw [rejectAll] at h
    by_cases hnow : (start.getD entry.raw).HasText ∨ TextRejected site input
    · have hstep : (reconfigure sanitizeHost entry start site input).1 = .raised ∨ ∃ config :
        Config PassphraseValue, config.HasText ∧
          ((∃ e p, reconfigure sanitizeHost entry start site input = showForm config e p) ∨
          (reconfigure sanitizeHost entry start site input) = (.abort entry.name (entry.written config),config)) := by
        rcases hnow with hnow | hnow
        · exact reconfigure_hasText sanitizeHost site input hnow
        · obtain ⟨config,hc,e,p,he⟩ := reconfigure_textRejected sanitizeHost entry start hnow
          exact Or.inr ⟨config,hc,Or.inl ⟨e,p,he⟩⟩
      rcases hstep with hraised | ⟨config,hc,⟨e,p,he⟩ | he⟩
      · split at h
        · rename_i heq
          rw [heq] at hraised
          cases hraised
        · cases h
        · cases h
      · rw [he] at h
        have hc' : ((some config).getD entry.raw).HasText := hc
        exact ih (Or.inl hc') h
      · rw [he] at h
        cases h
    · push Not at hnow
      obtain ⟨hno,hfine⟩ := hnow
      have hrest : ∃ x ∈ rest, TextRejected x.1 x.2 := by
        rcases ht with ht | ⟨y,hy,hrej⟩
        · exact absurd ht hno
        · rcases List.mem_cons.mp hy with rfl | hy
          · exact absurd hrej hfine
          · exact ⟨y,hy,hrej⟩
      split at h
      · exact ih (Or.inr hrest) h
      · cases h
      · cases h

/-- What the rejected submissions have put into a setting, a later one enters again or it is what
the entry has anyway. -/
structure Settled (sanitizeHost : String → String) (entry : Config Passphrases)
  (before : List (Site × UserInput String))
    (input : UserInput String) : Prop where
  text : ∀ x ∈ before, ¬ TextRejected x.1 x.2
  host : input.host = none → ∀ host ∈ lastSome (fun x => x.2.host.map sanitizeHost) before, host = entry.host
  apiKey : popBlankApiKey input.apiKey = none → ∀ key ∈ lastSome (fun x => popBlankApiKey x.2.apiKey) before,
    key = entry.apiKey
  verifySsl : input.verifySsl = none → ∀ ssl ∈ lastSome (fun x => x.2.verifySsl) before, ssl = entry.verifySsl
  passphrases : ∀ dataset, entryAt (enteredPassphrases input) dataset = none →
    ∀ pp ∈ lastSome (fun x => entryAt (enteredPassphrases x.2) dataset) before,
      entryAt entry.passphrases dataset = some pp

/-- The submission does not make the flow raise; accepted, it writes what it writes in a fresh flow:
the stored passphrases updated by those it enters, and the stored key if its own is blank. -/
structure LeavesNoTrace (sanitizeHost : String → String) (entry : Config Passphrases)
  (working : Option (Config PassphraseValue))
    (site : Site) (input : UserInput String) : Prop where
  noRaise : (reconfigure sanitizeHost entry working site input).1 ≠ .raised
  same : ∀ title data, (reconfigure sanitizeHost entry working site input).1 = .abort title data →
    (reconfigure sanitizeHost entry none site input).1 = .abort title data
  mapping : ∀ title data, (reconfigure sanitizeHost entry working site input).1 = .abort title data →
    data.passphrases = (overlay entry.passphrases (enteredPassphrases input)).map .mapping
  apiKey : ∀ title data, (reconfigure sanitizeHost entry working site input).1 = .abort title data →
    popBlankApiKey input.apiKey = none → data.apiKey = entry.apiKey

theorem enteredPassphrases_ne_empty (input : UserInput String) : enteredPassphrases input ≠ some ∅ := by
  intro h
  rw [enteredPassphrases,Option.bind_eq_some_iff] at h
  obtain ⟨text,_,h⟩ := h
  split at h
  · cases h
  · rename_i hblank
    cases hparse : textToPassphrases text with
    | error fault =>
      rw [hparse] at h
      cases h
    | ok d =>
      rw [hparse] at h
      cases h
      exact ne_empty_of_textToPassphrases hblank hparse rfl

theorem enter_foldl_kept (sanitizeHost : String → String) (before : List (Site × UserInput String))
    (c : Config Passphrases) :
    (before.foldl (fun c x => c.enter sanitizeHost x.2) c).name = c.name ∧
    (before.foldl (fun c x => c.enter sanitizeHost x.2) c).systemId = c.systemId ∧
    ((before.foldl (fun c x => c.enter sanitizeHost x.2) c).passphrases = none → c.passphrases = none) := by
  induction before generalizing c with
  | nil => exact ⟨rfl,rfl,id⟩
  | cons x rest ih =>
    obtain ⟨hname,hid,hnone⟩ := ih (c.enter sanitizeHost x.2)
    exact ⟨hname,hid,fun h => (overlay_eq_none_iff.mp (hnone h)).1⟩

theorem enter_foldl_eq_iff (input : UserInput String) :
    (before.foldl (fun c x =>
      c.enter sanitizeHost x.2) entry).enter sanitizeHost input = entry.enter sanitizeHost input ↔
      (input.host = none → ∀ host ∈ lastSome (fun x => x.2.host.map sanitizeHost) before, host = entry.host) ∧
      (popBlankApiKey input.apiKey = none → ∀ key ∈ lastSome (fun x => popBlankApiKey x.2.apiKey) before,
        key = entry.apiKey) ∧
      (input.verifySsl = none → ∀ ssl ∈ lastSome (fun x => x.2.verifySsl) before, ssl = entry.verifySsl) ∧
      ∀ dataset, entryAt (enteredPassphrases input) dataset = none →
        ∀ pp ∈ lastSome (fun x => entryAt (enteredPassphrases x.2) dataset) before,
          entryAt entry.passphrases dataset = some pp := by
  have hhost := foldl_eq_lastSome (fun c (x : Site × UserInput String) => c.enter sanitizeHost x.2) Config.host
    (fun x => x.2.host.map sanitizeHost) (fun _ _ => rfl) before entry
  have hkey := foldl_eq_lastSome (fun c (x : Site × UserInput String) => c.enter sanitizeHost x.2) Config.apiKey
    (fun x => popBlankApiKey x.2.apiKey) (fun _ _ => rfl) before entry
  have hssl := foldl_eq_lastSome (fun c (x : Site × UserInput String) => c.enter sanitizeHost x.2) Config.verifySsl
    (fun x => x.2.verifySsl) (fun _ _ => rfl) before entry
  have hpass : (before.foldl (fun c x => c.enter sanitizeHost x.2) entry).passphrases =
      before.foldl (fun m x => overlay m (enteredPassphrases x.2)) entry.passphrases :=
    (List.foldl_hom Config.passphrases (fun _ _ => rfl)).symm
  obtain ⟨hname,hid,_⟩ := enter_foldl_kept sanitizeHost before entry
  rw [Config.enter,Config.enter,hhost,hkey,hssl,hpass,hname,hid,Config.mk.injEq,getD_getD_eq_iff,
    getD_getD_eq_iff,getD_getD_eq_iff,
    overlay_foldl_eq_iff (fun x _ => enteredPassphrases_ne_empty x.2),Option.map_eq_none_iff]
  simp only [true_and,and_true]

theorem written_passphrases {c : Config Passphrases} (hnone : c.passphrases = none → entry.passphrases = none)
    (id : Option String) :
    (entry.written { c.raw with systemId := id }).passphrases = c.passphrases.map .mapping := by
  rw [Config.written,Config.raw,Config.raw]
  cases hc : c.passphrases with
  | none => rw [hnone hc]; rfl
  | some d => rfl

theorem eq_of_written (c c' : Config Passphrases) {id id' : Option String} (hname : c.name = c'.name)
    (hid : c.systemId = c'.systemId)
    (hnone : c.passphrases = none → entry.passphrases = none)
    (hnone' : c'.passphrases = none → entry.passphrases = none)
    (h : entry.written { c.raw with systemId := id } = entry.written { c'.raw with systemId := id' }) : c = c' := by
  have hpass : c.passphrases.map PassphraseValue.mapping = c'.passphrases.map .mapping := by
    rw [← written_passphrases hnone id,h,written_passphrases hnone' id']
  have hpass' := Option.map_injective (fun _ _ => PassphraseValue.mapping.inj) hpass
  simp only [Config.written,Config.raw,Config.mk.injEq] at h
  obtain ⟨_,hhost,hkey,hssl,_⟩ := h
  cases c
  cases c'
  simp only at hname hid hhost hkey hssl hpass'
  rw [hname,hid,hhost,hkey,hssl,hpass']

theorem settled_iff_of_text (input : UserInput String) (htext : ∀ x ∈ before, ¬ TextRejected x.1 x.2) :
    Settled sanitizeHost entry before input ↔
      (before.foldl (fun c x =>
        c.enter sanitizeHost x.2) entry).enter sanitizeHost input = entry.enter sanitizeHost input := by
  rw [enter_foldl_eq_iff]
  exact ⟨fun h => ⟨h.host,h.apiKey,h.verifySsl,h.passphrases⟩,fun ⟨hhost,hkey,hssl,hpass⟩ =>
    ⟨htext,hhost,hkey,hssl,hpass⟩⟩

theorem getD_none_raw (entry : Config Passphrases) :
    (none : Option (Config PassphraseValue)).getD entry.raw = entry.raw := rfl

def NotRejected (sanitizeHost : String → String) (entry : Config Passphrases)
  (working : Option (Config PassphraseValue)) (site : Site)
    (input : UserInput String) : Prop :=
  ∀ errors placeholders host ssl,
    (reconfigure sanitizeHost entry working site input).1 ≠ .form errors placeholders host ssl

theorem NotRejected.ne_showForm (h : NotRejected sanitizeHost entry working site input)
    {config : Config PassphraseValue} {e p : Errors} :
    reconfigure sanitizeHost entry working site input ≠ showForm config e p := by
  intro he
  exact h e p config.host config.verifySsl (by rw [he]; rfl)

/-- The text of a rejected submission makes a later one raise, or is written to the entry. -/
theorem not_leavesNoTrace_of_text (htext : ∃ x ∈ before, TextRejected x.1 x.2)
    (hbefore : rejectAll sanitizeHost entry none before = some working)
    (hinput : NotRejected sanitizeHost entry working site input) :
      ¬ LeavesNoTrace sanitizeHost entry working site input := by
  intro h
  rcases reconfigure_hasText sanitizeHost site input (rejectAll_hasText (Or.inr htext) hbefore)
    with hraised | ⟨config,⟨t,hne,ht⟩,⟨e,p,he⟩ | he⟩
  · exact h.noRaise hraised
  · exact hinput.ne_showForm he
  · have hmap := h.mapping entry.name (entry.written config) (by rw [he])
    rw [Config.written,ht,Option.some_or] at hmap
    cases hov : overlay entry.passphrases (enteredPassphrases input) with
    | none =>
      rw [hov] at hmap
      cases hmap
    | some d =>
      rw [hov] at hmap
      cases hmap

theorem leavesNoTrace_of_enter_eq {c : Config Passphrases} (hworking : working.getD entry.raw = c.raw)
    (hfine : ¬ TextRejected site input)
    (hinput : NotRejected sanitizeHost entry working site input)
    (h : c.enter sanitizeHost input = entry.enter sanitizeHost input) :
    LeavesNoTrace sanitizeHost entry working site input := by
  have hrun := reconfigure_raw sanitizeHost hworking hfine
  rw [h] at hrun
  have hrunFresh := reconfigure_raw sanitizeHost (getD_none_raw entry) hfine
  rcases conclude_cases entry site (entry.enter sanitizeHost input).raw with ⟨e,p,he⟩ | ⟨id,he⟩
  · exact absurd (hrun.trans he) hinput.ne_showForm
  · have hresult : (reconfigure sanitizeHost entry working site input).1 =
        .abort entry.name (entry.written { (entry.enter sanitizeHost input).raw with systemId := id }) := by
      rw [hrun,he]
    refine ⟨?_,?_,?_,?_⟩
    · rw [hresult]
      exact FlowResult.noConfusion
    · intro title data hdata
      rw [hrunFresh,← hrun,hdata]
    · intro title data hdata
      obtain ⟨_,rfl⟩ := FlowResult.abort.inj (hresult.symm.trans hdata)
      exact written_passphrases (fun h => (overlay_eq_none_iff.mp h).1) id
    · intro title data hdata hblank
      obtain ⟨_,rfl⟩ := FlowResult.abort.inj (hresult.symm.trans hdata)
      rw [Config.written,Config.raw,Config.enter,hblank]
      rfl

/-- What a submission writes shows what it made of the working data. -/
theorem enter_eq_of_leavesNoTrace {c : Config Passphrases} (hworking : working.getD entry.raw = c.raw)
    (hfine : ¬ TextRejected site input)
    (hinput : NotRejected sanitizeHost entry working site input) (hname : c.name = entry.name)
    (hid : c.systemId = entry.systemId)
    (hnone : c.passphrases = none → entry.passphrases = none)
    (h : LeavesNoTrace sanitizeHost entry working site input) :
    c.enter sanitizeHost input = entry.enter sanitizeHost input := by
  have hrun := reconfigure_raw sanitizeHost hworking hfine
  have hrunFresh := reconfigure_raw sanitizeHost (getD_none_raw entry) hfine
  rcases conclude_cases entry site (c.enter sanitizeHost input).raw with ⟨e,p,he⟩ | ⟨id,he⟩
  · exact absurd (hrun.trans he) hinput.ne_showForm
  · have hsame := h.same entry.name _ (by rw [hrun,he])
    rcases conclude_cases entry site (entry.enter sanitizeHost input).raw with ⟨e,p,he'⟩ | ⟨id',he'⟩
    · rw [hrunFresh,he'] at hsame
      cases hsame
    · rw [hrunFresh,he'] at hsame
      exact (eq_of_written (entry.enter sanitizeHost input) (c.enter sanitizeHost input) hname.symm hid.symm
        (fun h => (overlay_eq_none_iff.mp h).1) (fun h =>
          hnone (overlay_eq_none_iff.mp h).1) (FlowResult.abort.inj hsame).2).symm

/-- Rejected submissions leave no trace exactly where each setting they have touched is settled again. -/
theorem leavesNoTrace_iff (sanitizeHost : String → String) (entry : Config Passphrases)
    (before : List (Site × UserInput String))
    (working : Option (Config PassphraseValue)) (site : Site) (input : UserInput String)
    (hbefore : rejectAll sanitizeHost entry none before = some working)
    (hinput : ∀ errors placeholders host ssl,
      (reconfigure sanitizeHost entry working site input).1 ≠ .form errors placeholders host ssl) :
    LeavesNoTrace sanitizeHost entry working site input ↔ Settled sanitizeHost entry before input := by
  have hfine : ¬ TextRejected site input := by
    intro hrej
    obtain ⟨config,_,e,p,he⟩ := reconfigure_textRejected sanitizeHost entry working hrej
    exact NotRejected.ne_showForm hinput he
  by_cases htext : ∃ x ∈ before, TextRejected x.1 x.2
  · constructor
    · exact fun h => absurd h (not_leavesNoTrace_of_text htext hbefore hinput)
    · intro h
      obtain ⟨x,hx,hrej⟩ := htext
      exact absurd hrej (h.text x hx)
  · push Not at htext
    have hworking := rejectAll_raw (getD_none_raw entry) htext hbefore
    obtain ⟨hname,hid,hnone⟩ := enter_foldl_kept sanitizeHost before entry
    rw [settled_iff_of_text input htext]
    exact ⟨enter_eq_of_leavesNoTrace hworking hfine hinput hname hid hnone,
      leavesNoTrace_of_enter_eq hworking hfine hinput⟩

/-- An entry with the passphrase of one dataset, and a NAS that only the stored host reaches. -/
def stored : Config Passphrases := ⟨"nas","nas.local","key",true,some (Finmap.singleton "tank" "old"),none⟩

def nas : Site := ⟨none,fun host _ _ => if host = "nas.local" then .connected none else .failed "timeout"⟩

/-- Another host is tried in vain, then the stored one is entered with a new passphrase. -/
theorem leavesNoTrace_iff_host_reentered :
    LeavesNoTrace id stored (some { stored.raw with host := "nas.lan" }) nas
        ⟨some "nas.local",none,some true,some "tank#new"⟩ ↔
      Settled id stored [(nas,⟨some "nas.lan",none,some true,none⟩)]
        ⟨some "nas.local",none,some true,some "tank#new"⟩ :=
  leavesNoTrace_iff id stored [(nas,⟨some "nas.lan",none,some true,none⟩)] _ nas _ (by decide) (by
    intro errors placeholders host ssl h
    have hresult : (reconfigure id stored (some { stored.raw with host := "nas.lan" }) nas
        ⟨some "nas.local",none,some true,some "tank#new"⟩).1 =
          .abort "nas" { stored.raw with passphrases := some (.mapping (Finmap.singleton "tank" "new")) } := by decide
    rw [hresult] at h
    cases h)

/-- A line without "#" is corrected in the next submission, which then raises. -/
theorem not_leavesNoTrace_of_malformed_line : ¬ ∀ (sanitizeHost : String → String) (entry : Config Passphrases)
    (before : List (Site × UserInput String)) (working : Option (Config PassphraseValue)) (site : Site)
    (input : UserInput String),
    rejectAll sanitizeHost entry none before = some working →
    (∀ errors placeholders host ssl,
      (reconfigure sanitizeHost entry working site input).1 ≠ .form errors placeholders host ssl) →
    LeavesNoTrace sanitizeHost entry working site input := by
  intro hall
  have hraised : (reconfigure id stored (some { stored.raw with passphrases := some (.text "tank") }) nas
      ⟨some "nas.local",none,some true,some "tank#new"⟩).1 = .raised := by decide
  refine (hall id stored [(nas,⟨some "nas.local",none,some true,some "tank"⟩)] _ nas
    ⟨some "nas.local",none,some true,some "tank#new"⟩
    (by decide) ?_).noRaise hraised
  intro errors placeholders host ssl h
  rw [hraised] at h
  cases h

end TruenasCE.Flow
