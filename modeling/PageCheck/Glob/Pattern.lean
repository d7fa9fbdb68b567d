/-! # Wildcard patterns

The pattern for one name: characters that stand for themselves, `?` for any character, `*` for any
characters, and `[...]` or `[!...]` for a character inside or outside a class. Two stars that make
up a whole component of a path stand for any number of directories.
-/

namespace PageCheck.Glob

/-- An item of a character class. -/
inductive ClassItem where
  | single (c : Char)
  | range (low high : Char)
  deriving DecidableEq, Repr

def ClassItem.holds : ClassItem → Char → Bool
  | single c, x => x = c
  | range low high, x => low ≤ x && x ≤ high

/-- A piece of a pattern. -/
inductive Token where
  | char (c : Char)
  /-- Any one character. -/
  | any
  /-- Any characters. -/
  | sequence
  /-- Any number of directories. -/
  | directories
  | within (items : List ClassItem)
  | except (items : List ClassItem)
  deriving DecidableEq, Repr

inductive FaultKind where
  /-- More than two stars in a row. -/
  | stars
  /-- Two stars that are only a part of a component. -/
  | directories
  /-- A class that does not end. -/
  | range
  deriving DecidableEq, Repr

/-- A malformed pattern, with the number of characters before the fault. -/
structure PatternFault where
  position : Nat
  kind : FaultKind
  deriving DecidableEq, Repr

def PatternFault.message (fault : PatternFault) : String :=
  let reason := match fault.kind with
    | .stars => "wildcards are either regular `*` or recursive `**`"
    | .directories => "recursive wildcards must form a single path component"
    | .range => "invalid range pattern"
  "Pattern syntax error near position " ++ toString fault.position ++ ": " ++ reason

/-- The items of a class: three characters with a dash in the middle are a range. -/
def classItems : List Char → List ClassItem
  | low :: '-' :: high :: rest => .range low high :: classItems rest
  | c :: rest => .single c :: classItems rest
  | [] => []

/-- The characters before the first closing bracket, and those behind it. -/
def toBracket? : List Char → Option (List Char × List Char)
  | [] => none
  | c :: rest =>
    if c = ']' then some ([], rest)
    else (toBracket? rest).map fun (inside, behind) => (c :: inside, behind)

theorem length_toBracket? {cs inside behind : List Char}
    (h : toBracket? cs = some (inside, behind)) :
    inside.length + behind.length + 1 = cs.length := by
  induction cs generalizing inside with
  | nil => simp [toBracket?] at h
  | cons c rest ih =>
    simp only [toBracket?] at h
    split at h
    · simp only [Option.some.injEq, Prod.mk.injEq] at h
      obtain ⟨rfl, rfl⟩ := h
      simp
    · simp only [Option.map_eq_some_iff, Prod.mk.injEq, Prod.exists] at h
      obtain ⟨inner, _, found, rfl, rfl⟩ := h
      have := ih found
      simp only [List.length_cons]
      omega

/-- A class, from what follows its opening bracket: its token, how many characters it takes, and
    what is behind it. A closing bracket that comes first belongs to the class. -/
def class? : List Char → Option (Token × Nat × List Char)
  | '!' :: first :: rest =>
    (toBracket? rest).map fun (inside, behind) =>
      (.except (classItems (first :: inside)), inside.length + 3, behind)
  | '!' :: [] => none
  | first :: rest =>
    (toBracket? rest).map fun (inside, behind) =>
      (.within (classItems (first :: inside)), inside.length + 2, behind)
  | [] => none

theorem length_class? {cs behind : List Char} {token : Token} {taken : Nat}
    (h : class? cs = some (token, taken, behind)) : behind.length < cs.length := by
  unfold class? at h
  split at h <;> simp only [Option.map_eq_some_iff, Prod.mk.injEq, Prod.exists, reduceCtorEq] at h
  all_goals
    obtain ⟨_, _, found, -, -, rfl⟩ := h
    have := length_toBracket? found
    simp only [List.length_cons]
    omega

/-- The tokens of a pattern, from its characters after the first `position`. `before` is the
    character in front of them. -/
def tokensFrom (position : Nat) (before : Option Char) :
    List Char → Except PatternFault (List Token)
  | [] => .ok []
  | '?' :: rest => (tokensFrom (position + 1) (some '?') rest).map (.any :: ·)
  | '*' :: '*' :: '*' :: _ => .error ⟨position + 2, .stars⟩
  | '*' :: '*' :: rest =>
    if before.all (· = '/') then
      match rest with
      | [] => .ok [.directories]
      | c :: more =>
        if c = '/' then (tokensFrom (position + 3) (some '/') more).map (.directories :: ·)
        else .error ⟨position + 2, .directories⟩
    else .error ⟨position - 1, .directories⟩
  | '*' :: rest => (tokensFrom (position + 1) (some '*') rest).map (.sequence :: ·)
  | '[' :: rest =>
    match h : class? rest with
    | some (token, taken, behind) =>
      have := length_class? h
      (tokensFrom (position + 1 + taken) (some ']') behind).map (token :: ·)
    | none => .error ⟨position, .range⟩
  | c :: rest => (tokensFrom (position + 1) (some c) rest).map (.char c :: ·)
termination_by cs => cs.length

def tokens (pattern : String) : Except PatternFault (List Token) :=
  tokensFrom 0 none pattern.toList

/-- Whether a token that stands for one character accepts it. -/
def Token.accepts : Token → Char → Bool
  | char c, x => x = c
  | any, _ => true
  | within items, x => items.any (·.holds x)
  | except items, x => !items.any (·.holds x)
  | sequence, _ | directories, _ => false

/-- Whether tokens match all of the given characters. -/
def tokensMatch : List Token → List Char → Bool
  | [], [] => true
  | [], _ :: _ => false
  | .sequence :: tokens, [] => tokensMatch tokens []
  | .sequence :: tokens, c :: rest =>
    tokensMatch tokens (c :: rest) || tokensMatch (.sequence :: tokens) rest
  | _ :: _, [] => false
  | token :: tokens, c :: rest => token.accepts c && tokensMatch tokens rest
termination_by tokens cs => tokens.length + cs.length

/-- The name that tokens spell out, if they are all plain characters. -/
def literal? : List Token → Option String
  | [] => some ""
  | .char c :: rest => (literal? rest).map (String.singleton c ++ ·)
  | _ :: _ => none

end PageCheck.Glob
