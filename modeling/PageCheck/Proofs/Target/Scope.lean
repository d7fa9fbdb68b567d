import Mathlib.Order.MinMax
import PageCheck.Proofs.Text.Blank
import PageCheck.Proofs.Text.Case
import PageCheck.Proofs.Text.Separated
import PageCheck.Target

/-! # Scopes and their words

Targets are ordered by strength, and a scope has the strongest target of its words. So the target of
a scope is known from the set of its words, each of which is one of two names or counts for nothing.
-/

namespace PageCheck.Target

def strength : Target → Nat
  | unsupported => 0
  | css => 1
  | html => 2

theorem strength_injective : Function.Injective strength := by
  intro target other equal
  cases target <;> cases other <;> first | rfl | cases equal

instance : LinearOrder Target :=
  LinearOrder.lift' strength strength_injective

def words (grammar : String) : List String :=
  Text.separate '.' grammar

/-- The word is the name, whatever blanks stand around it and whatever its case is. -/
def IsName (word name : String) : Prop :=
  ∃ core, Text.IsTrimmed word core ∧ Text.SameApartFromCase core name

/-- The target that is found by going through the words of a scope: the first one that stands for
    markup ends the search, and one that stands for style sheets is kept in mind. -/
def firstOf (sheet : Bool) : List String → Target
  | [] => if sheet then css else unsupported
  | word :: rest =>
    match ofWord word.toList with
    | html => html
    | css => firstOf true rest
    | unsupported => firstOf sheet rest

variable {word grammar other : String} {bound : Target}

theorem isName_iff {name : String} :
    IsName word name ↔
      (Text.trimChars word.toList).map Char.toLower = name.toList.map Char.toLower := by
  have trimmed : (Text.trim word).toList = Text.trimChars word.toList := String.toList_ofList
  unfold IsName
  simp only [Text.isTrimmed_iff, exists_eq_left', Text.sameApartFromCase_iff, trimmed]

theorem ofWord_eq_html_iff : ofWord word.toList = html ↔ IsName word "html" := by
  have lower : "html".toList.map Char.toLower = ['h', 't', 'm', 'l'] := by decide
  rw [isName_iff, lower, ofWord]
  split
  · simp_all
  · split <;> simp_all

theorem ofWord_eq_css_iff : ofWord word.toList = css ↔ IsName word "css" := by
  have lower : "css".toList.map Char.toLower = ['c', 's', 's'] := by decide
  rw [isName_iff, lower, ofWord]
  split
  · simp_all
  · split <;> simp_all

theorem ofWord_eq_unsupported_iff :
    ofWord word.toList = unsupported ↔ ¬ IsName word "html" ∧ ¬ IsName word "css" := by
  rw [← ofWord_eq_html_iff, ← ofWord_eq_css_iff]
  cases ofWord word.toList <;> simp

theorem le_html (target : Target) : target ≤ html := by
  cases target <;> decide

theorem unsupported_le (target : Target) : unsupported ≤ target := by
  cases target <;> decide

theorem max_eq_sup (target other : Target) : target.max other = target ⊔ other := by
  cases target <;> cases other <;> rfl

theorem foldl_max_le_iff {targets : List Target} {first : Target} :
    targets.foldl Target.max first ≤ bound ↔
      first ≤ bound ∧ ∀ target ∈ targets, target ≤ bound := by
  induction targets generalizing first with
  | nil => simp
  | cons target rest ih =>
      rw [List.foldl_cons, ih, max_eq_sup, sup_le_iff, List.forall_mem_cons, and_assoc]

theorem foldl_max_mem (targets : List Target) (first : Target) :
    targets.foldl Target.max first ∈ first :: targets := by
  induction targets generalizing first with
  | nil => exact List.mem_cons_self
  | cons target rest ih =>
      rw [List.foldl_cons]
      rcases List.mem_cons.mp (ih (first.max target)) with stronger | later
      · rw [stronger, max_eq_sup]
        rcases max_choice first target with own | next
        · rw [own]
          exact List.mem_cons_self
        · rw [next]
          exact List.mem_cons_of_mem _ List.mem_cons_self
      · exact List.mem_cons_of_mem _ (List.mem_cons_of_mem _ later)

theorem ofGrammar_eq (grammar : String) :
    ofGrammar grammar =
      ((words grammar).map fun word => ofWord word.toList).foldl Target.max unsupported := by
  simp [ofGrammar, words, Text.separate, Function.comp_def]

/-- A scope's target is the least one that none of its words goes beyond. -/
theorem ofGrammar_le_iff :
    ofGrammar grammar ≤ bound ↔ ∀ word ∈ words grammar, ofWord word.toList ≤ bound := by
  rw [ofGrammar_eq, foldl_max_le_iff, List.forall_mem_map]
  exact and_iff_right (unsupported_le bound)

theorem le_ofGrammar (member : word ∈ words grammar) : ofWord word.toList ≤ ofGrammar grammar :=
  ofGrammar_le_iff.mp le_rfl word member

theorem exists_ofWord_eq (grammar : String) :
    ∃ word ∈ words grammar, ofWord word.toList = ofGrammar grammar := by
  have found := foldl_max_mem ((words grammar).map fun word => ofWord word.toList) unsupported
  rw [← ofGrammar_eq] at found
  rcases List.mem_cons.mp found with none_counts | own
  · -- Every scope has a word, even the empty one, and no word is stronger than the scope.
    obtain ⟨word, member⟩ := List.exists_mem_of_ne_nil _ (Text.separate_ne_nil '.' grammar)
    refine ⟨word, member, le_antisymm (le_ofGrammar member) ?_⟩
    rw [none_counts]
    exact unsupported_le _
  · obtain ⟨word, member, equal⟩ := List.mem_map.mp own
    exact ⟨word, member, equal⟩

theorem words_append_dot (grammar other : String) :
    words (grammar ++ "." ++ other) = words grammar ++ words other :=
  Text.separate_append '.' grammar other

theorem words_of_not_mem (dotless : '.' ∉ word.toList) : words word = [word] :=
  Text.separate_of_not_mem dotless

theorem ofGrammar_of_not_mem (dotless : '.' ∉ word.toList) :
    ofGrammar word = ofWord word.toList := by
  apply eq_of_forall_ge_iff
  intro bound
  rw [ofGrammar_le_iff, words_of_not_mem dotless, List.forall_mem_singleton]

theorem ofGrammar_of_mem_words (member : word ∈ words grammar) :
    ofGrammar word = ofWord word.toList :=
  ofGrammar_of_not_mem (Text.not_mem_of_mem_separate member)

theorem ofGrammar_append_dot (grammar other : String) :
    ofGrammar (grammar ++ "." ++ other) = ofGrammar grammar ⊔ ofGrammar other := by
  apply eq_of_forall_ge_iff
  intro bound
  rw [ofGrammar_le_iff, words_append_dot, List.forall_mem_append, sup_le_iff, ofGrammar_le_iff,
    ofGrammar_le_iff]

theorem ofGrammar_mono (included : words grammar ⊆ words other) :
    ofGrammar grammar ≤ ofGrammar other := by
  rw [ofGrammar_le_iff]
  intro word member
  exact le_ofGrammar (included member)

theorem firstOf_le_iff {sheet : Bool} {scope : List String} :
    firstOf sheet scope ≤ bound ↔
      (if sheet then css else unsupported) ≤ bound ∧
        ∀ word ∈ scope, ofWord word.toList ≤ bound := by
  induction scope generalizing sheet with
  | nil => simp [firstOf]
  | cons word rest ih =>
      rw [firstOf, List.forall_mem_cons]
      cases ofWord word.toList with
      | html =>
          -- Nothing behind this word is looked at, and nothing there could be stronger.
          constructor
          · intro markup
            have top : bound = html := le_antisymm (le_html bound) markup
            rw [top]
            exact ⟨le_html _, le_html _, fun _ _ => le_html _⟩
          · intro all
            exact all.2.1
      | css =>
          dsimp only
          rw [ih]
          cases sheet <;> simp [unsupported_le]
      | unsupported =>
          dsimp only
          rw [ih]
          simp [unsupported_le]

theorem firstOf_words (grammar : String) : firstOf false (words grammar) = ofGrammar grammar := by
  apply eq_of_forall_ge_iff
  intro bound
  rw [firstOf_le_iff, ofGrammar_le_iff]
  exact and_iff_right (unsupported_le bound)

/-- The target of a scope is the strongest of its words, so that scopes put together have the
    stronger of their targets; a single word has the target that it is the name of, and the lowest
    one if it is no name. Neither the order of the words nor their repetition matters, more words
    never weaken a scope, and words that are no name make no difference. To look for the first
    markup word is as good as to look at all of them. -/
theorem ofGrammar_strongest_word :
    (unsupported < css ∧ css < html) ∧
    (∀ grammar other, ofGrammar (grammar ++ "." ++ other) = ofGrammar grammar ⊔ ofGrammar other) ∧
    (∀ word, '.' ∉ word.toList →
      (ofGrammar word = html ↔ IsName word "html") ∧
      (ofGrammar word = css ↔ IsName word "css") ∧
      (ofGrammar word = unsupported ↔ ¬ IsName word "html" ∧ ¬ IsName word "css")) ∧
    (∀ grammar, (∃ word ∈ words grammar, ofGrammar word = ofGrammar grammar) ∧
      (∀ word ∈ words grammar, ofGrammar word ≤ ofGrammar grammar) ∧
      firstOf false (words grammar) = ofGrammar grammar) ∧
    (∀ grammar other, (∀ word, word ∈ words grammar ↔ word ∈ words other) →
      ofGrammar grammar = ofGrammar other) ∧
    (∀ grammar other, words grammar ⊆ words other → ofGrammar grammar ≤ ofGrammar other) ∧
    ∀ grammar word, '.' ∉ word.toList → ¬ IsName word "html" → ¬ IsName word "css" →
      ofGrammar (grammar ++ "." ++ word) = ofGrammar grammar ∧
        ofGrammar (word ++ "." ++ grammar) = ofGrammar grammar := by
  refine ⟨by decide, ofGrammar_append_dot, ?_, ?_, ?_, ?_, ?_⟩
  · intro word dotless
    rw [ofGrammar_of_not_mem dotless]
    exact ⟨ofWord_eq_html_iff, ofWord_eq_css_iff, ofWord_eq_unsupported_iff⟩
  · intro grammar
    refine ⟨?_, ?_, firstOf_words grammar⟩
    · obtain ⟨word, member, equal⟩ := exists_ofWord_eq grammar
      exact ⟨word, member, (ofGrammar_of_mem_words member).trans equal⟩
    · intro word member
      rw [ofGrammar_of_mem_words member]
      exact le_ofGrammar member
  · intro grammar other same
    exact le_antisymm (ofGrammar_mono fun word => (same word).mp)
      (ofGrammar_mono fun word => (same word).mpr)
  · intro grammar other included
    exact ofGrammar_mono included
  · intro grammar word dotless no_markup no_sheet
    have lowest : ofGrammar word = unsupported := by
      rw [ofGrammar_of_not_mem dotless]
      exact ofWord_eq_unsupported_iff.mpr ⟨no_markup, no_sheet⟩
    rw [ofGrammar_append_dot, ofGrammar_append_dot, lowest]
    exact ⟨sup_eq_left.mpr (unsupported_le _), sup_eq_right.mpr (unsupported_le _)⟩

/-- The style sheet part counts although the other words only resemble a name, and so does a markup
    word that comes late, in capitals and with blanks around it. -/
theorem ofGrammar_strongest_word_postcss :
    ofGrammar ("source.css" ++ "." ++ "postcss") = ofGrammar "source.css" ∧
      ofGrammar " HTML " = html ∧ ofGrammar "css. HTML .css" = ofGrammar " HTML .css" ∧
      ofGrammar "source.css" ≤ ofGrammar "source.css.embedded. HTML " := by
  obtain ⟨-, -, single, -, same, more, others⟩ := ofGrammar_strongest_word
  refine ⟨?_, ?_, ?_, ?_⟩
  · have no_markup : ¬ IsName "postcss" "html" := by
      rw [isName_iff]
      decide
    have no_sheet : ¬ IsName "postcss" "css" := by
      rw [isName_iff]
      decide
    exact (others "source.css" "postcss" (by decide) no_markup no_sheet).1
  · have markup : IsName " HTML " "html" := isName_iff.mpr (by decide)
    exact (single " HTML " (by decide)).1.mpr markup
  · have first : words "css. HTML .css" = ["css", " HTML ", "css"] := by decide
    have second : words " HTML .css" = [" HTML ", "css"] := by decide
    apply same
    intro word
    rw [first, second]
    simp only [List.mem_cons, List.not_mem_nil, or_false]
    exact ⟨fun own => own.elim .inr id, fun own => own.elim (.inr ∘ .inl) .inl⟩
  · apply more
    decide

end PageCheck.Target
