import DiceDuel.Casting.Arguments
import DiceDuel.Spell.Reader

/-!
# Strict and lenient arguments

A family looks at some of the tokens of a spell, in an order of its own, and at no others. Leniently
it always takes its arguments, and a token with a fault is left out. Strictly the first token with a
fault stops it, and without one it takes what it takes leniently. So the two part only at a token
that the family looks at and that does not resolve.
-/

namespace DiceDuel

/-! ## Faults of tokens -/

namespace Value

variable {scaling : Scaling} {token : Option String} {fault : TokenFault}

/-- Whether a token is absent or stands for something. -/
def Sound (scaling : Scaling) (token : Option String) : Prop :=
  ∀ raw, token = some raw → ∃ value, ofToken scaling raw = .ok value

/-- The fault of an optional token, if it is there and has one. -/
def fault? (scaling : Scaling) (token : Option String) : Option TokenFault :=
  token.bind fun raw =>
    match ofToken scaling raw with
    | .error fault => some fault
    | .ok _ => none

/-- Only a token that is there can have a fault. -/
theorem fault?_eq_some_iff : fault? scaling token = some fault ↔
    ∃ raw, token = some raw ∧ ofToken scaling raw = .error fault := by
  cases token with
  | none => simp [fault?]
  | some raw =>
    cases htoken : ofToken scaling raw with
    | error other => simp [fault?, htoken]
    | ok value => simp [fault?, htoken]

/-- A token without a fault is absent or stands for something. -/
theorem fault?_eq_none_iff : fault? scaling token = none ↔ Sound scaling token := by
  cases token with
  | none => simp [fault?, Sound]
  | some raw =>
    cases htoken : ofToken scaling raw with
    | error fault => simp [fault?, Sound, htoken]
    | ok value => simp [fault?, Sound, htoken]

end Value

namespace Arguments

variable {strictness : Strictness} {scaling : Scaling} {raw : Option String}

/-- Leniently, a token with a fault is left out. -/
theorem resolve_lenient (scaling : Scaling) (raw : Option String) :
    resolve .lenient scaling raw = .ok (Value.ofToken? scaling raw) := by
  cases raw with
  | none => rfl
  | some token =>
    simp only [resolve, Value.ofToken?, Option.bind_some]
    cases Value.ofToken scaling token <;> rfl

/-- Strictly, a token with a fault is refused, and any other is treated as it is leniently. -/
theorem resolve_strict (scaling : Scaling) (raw : Option String) :
    resolve .strict scaling raw =
      (Value.fault? scaling raw).elim (.ok (Value.ofToken? scaling raw)) .error := by
  cases raw with
  | none => rfl
  | some token =>
    simp only [resolve, Value.ofToken?, Value.fault?, Option.bind_some]
    cases Value.ofToken scaling token <;> rfl

/-- A token without a fault resolves, strictly or not. -/
theorem resolve_of_isSome (hraw : (Value.ofToken? scaling raw).isSome = true) :
    resolve strictness scaling raw = .ok (Value.ofToken? scaling raw) := by
  cases raw with
  | none => cases hraw
  | some token =>
    rw [Value.ofToken?, Option.bind_some] at hraw
    simp only [resolve, Value.ofToken?, Option.bind_some]
    cases htoken : Value.ofToken scaling token with
    | ok value => rfl
    | error fault =>
      rw [htoken] at hraw
      cases hraw

end Arguments

/-! ## What a family looks at -/

/-- The tokens of a spell that a family looks at, in its order. A confusion looks at the token M
only if there is no leading one. -/
def Spell.consulted (spell : Spell) : Family → List (Option String)
  | .amount | .duration => [spell.first]
  | .confuse => [spell.first.or (spell.token? 'M'), spell.token? 'D']
  | .buff => [spell.first, spell.token? 'D', spell.token? 'T']
  | .charge => [spell.first, spell.token? 'T']
  | .diceTrigger => []

/-- The letters whose tokens a family can take up. -/
def Family.letters : Family → List Char
  | .amount | .duration | .diceTrigger => []
  | .confuse => ['M', 'D']
  | .buff => ['D', 'T', 'C']
  | .charge => ['T', 'C']

/-- The arguments of a family when every token that does not resolve counts as absent. The classes
are texts and stay as they are. -/
def Params.ofTokens (spell : Spell) : Family → Params
  | .amount => .amount (Value.ofToken? spell.scaling spell.first)
  | .duration => .duration (Value.ofToken? spell.scaling spell.first)
  | .confuse => .confuse
      ((Value.ofToken? spell.scaling spell.first).or
        (Value.ofToken? spell.scaling (spell.token? 'M')))
      (Value.ofToken? spell.scaling (spell.token? 'D'))
  | .buff => .buff (Value.ofToken? spell.scaling spell.first)
      (Value.ofToken? spell.scaling (spell.token? 'D'))
      (Value.ofToken? spell.scaling (spell.token? 'T')) (spell.token? 'C')
  | .charge => .charge (Value.ofToken? spell.scaling spell.first)
      (Value.ofToken? spell.scaling (spell.token? 'T')) (spell.token? 'C')
  | .diceTrigger => .diceTrigger

namespace Arguments

variable (spell : Spell) (family : Family)

/-- Leniently a family always takes its arguments. -/
theorem ofFamily_lenient : ofFamily .lenient spell family = .ok (.ofTokens spell family) := by
  unfold ofFamily
  cases family <;> simp only [resolve_lenient]
  case confuse =>
    rw [Params.ofTokens]
    cases Value.ofToken? spell.scaling spell.first <;> rfl
  all_goals rfl

/-- Strictly a step that needs a token is taken if the token has no fault, with what it stands
for. -/
theorem resolve_strict_bind {α : Type} (token : Option String)
    (next : Option Value → Except TokenFault α) :
    (resolve .strict spell.scaling token >>= next) =
      (Value.fault? spell.scaling token).elim (next (Value.ofToken? spell.scaling token))
        .error := by
  rw [resolve_strict]
  cases Value.fault? spell.scaling token <;> rfl

/-- Strictly a family takes the arguments that it takes leniently, unless one of the tokens that it
looks at has a fault; then it is refused with the first. -/
theorem ofFamily_strict : ofFamily .strict spell family =
    ((spell.consulted family).findSome? (Value.fault? spell.scaling)).elim
      (.ok (.ofTokens spell family)) .error := by
  have hcons (token : Option String) (rest : List (Option String))
      (result : Except TokenFault Params) :
      ((token :: rest).findSome? (Value.fault? spell.scaling)).elim result .error =
        (Value.fault? spell.scaling token).elim
          ((rest.findSome? (Value.fault? spell.scaling)).elim result .error) .error := by
    rw [List.findSome?_cons]
    cases Value.fault? spell.scaling token <;> rfl
  unfold ofFamily
  cases family with
  | amount | duration | buff | charge =>
    simp only [resolve_strict_bind, Spell.consulted, hcons]
    rfl
  | confuse =>
    -- A leading token that is there either stops the spell or gives the slots, so M plays no part.
    simp only [resolve_strict_bind, Spell.consulted, hcons]
    rw [Params.ofTokens]
    cases spell.first with
    | none =>
      rw [Option.none_or]
      rfl
    | some raw =>
      rw [Option.some_or]
      cases htoken : Value.ofToken spell.scaling raw with
      | error fault =>
        have hfault : Value.fault? spell.scaling (some raw) = some fault := by
          simp [Value.fault?, htoken]
        rw [hfault]
        rfl
      | ok value =>
        have hsound : Value.fault? spell.scaling (some raw) = none := by
          simp [Value.fault?, htoken]
        have hvalue : Value.ofToken? spell.scaling (some raw) = some value := by
          simp [Value.ofToken?, htoken, Except.toOption]
        rw [hsound, hvalue]
        rfl
  | diceTrigger => rfl

variable {spell} {family}

/-- A family makes the same of two spells that agree on what it reads. -/
theorem ofFamily_congr {other : Spell} (hscaling : other.scaling = spell.scaling)
    (hfirst : other.first = spell.first)
    (hletters : ∀ letter ∈ family.letters, other.token? letter = spell.token? letter)
    (strictness : Strictness) :
    ofFamily strictness other family = ofFamily strictness spell family := by
  unfold ofFamily
  cases family with
  | amount | duration => simp only [hscaling, hfirst]
  | confuse =>
    have hmarked : other.token? 'M' = spell.token? 'M' := hletters 'M' (by simp [Family.letters])
    have hdamage : other.token? 'D' = spell.token? 'D' := hletters 'D' (by simp [Family.letters])
    simp only [hscaling, hfirst, hmarked, hdamage]
  | buff =>
    have hduration : other.token? 'D' = spell.token? 'D' := hletters 'D' (by simp [Family.letters])
    have htier : other.token? 'T' = spell.token? 'T' := hletters 'T' (by simp [Family.letters])
    have hclass : other.token? 'C' = spell.token? 'C' := hletters 'C' (by simp [Family.letters])
    simp only [hscaling, hfirst, hduration, htier, hclass]
  | charge =>
    have htier : other.token? 'T' = spell.token? 'T' := hletters 'T' (by simp [Family.letters])
    have hclass : other.token? 'C' = spell.token? 'C' := hletters 'C' (by simp [Family.letters])
    simp only [hscaling, hfirst, htier, hclass]
  | diceTrigger => rfl

/-- Strictly a base takes what its family takes, with the scaling as read, or is refused with the
first fault. -/
theorem ofSpell_strict (base : Base) (spell : Spell) : ofSpell .strict base spell =
    ((spell.consulted base.family).findSome? (Value.fault? spell.scaling)).elim
      (.ok ⟨spell.scaling, .ofTokens spell base.family⟩) .error := by
  rw [ofSpell, ofFamily_strict]
  cases (spell.consulted base.family).findSome? (Value.fault? spell.scaling) <;> rfl

/-- Leniently a base always takes its arguments, and a token that does not resolve is left out.
Strictly a base is refused exactly if a token that it looks at has a fault, and with the first such
fault; otherwise it takes what it takes leniently. Both times nothing counts but the scaling, the
leading token and the letters that the base reads. -/
theorem ofSpell_strict_or_lenient (base : Base) (spell : Spell) :
    let taken : Arguments := ⟨spell.scaling, .ofTokens spell base.family⟩
    let looked := spell.consulted base.family
    ofSpell .lenient base spell = .ok taken ∧
      (∀ fault, ofSpell .strict base spell = .error fault ↔
        ∃ before raw after, looked = before ++ some raw :: after ∧
          (∀ token ∈ before, Value.Sound spell.scaling token) ∧
          Value.ofToken spell.scaling raw = .error fault) ∧
      (∀ arguments, ofSpell .strict base spell = .ok arguments ↔
        (∀ token ∈ looked, Value.Sound spell.scaling token) ∧ arguments = taken) ∧
      ∀ other : Spell, other.scaling = spell.scaling → other.first = spell.first →
        (∀ letter ∈ base.family.letters, other.token? letter = spell.token? letter) →
        ∀ strictness, ofSpell strictness base other = ofSpell strictness base spell := by
  intro taken looked
  have hstrict : ofSpell .strict base spell =
      (looked.findSome? (Value.fault? spell.scaling)).elim (.ok taken) .error :=
    ofSpell_strict base spell
  refine ⟨?_, ?_, ?_, ?_⟩
  · rw [ofSpell, ofFamily_lenient]
    rfl
  · intro fault
    have hfirst : ofSpell .strict base spell = .error fault ↔
        looked.findSome? (Value.fault? spell.scaling) = some fault := by
      rw [hstrict]
      cases looked.findSome? (Value.fault? spell.scaling) <;> simp
    rw [hfirst, List.findSome?_eq_some_iff]
    constructor
    · rintro ⟨before, token, after, hsplit, hfault, hbefore⟩
      obtain ⟨raw, rfl, hraw⟩ := Value.fault?_eq_some_iff.mp hfault
      exact ⟨before, raw, after, hsplit,
        fun token hmem => Value.fault?_eq_none_iff.mp (hbefore token hmem), hraw⟩
    · rintro ⟨before, raw, after, hsplit, hbefore, hraw⟩
      exact ⟨before, some raw, after, hsplit, Value.fault?_eq_some_iff.mpr ⟨raw, rfl, hraw⟩,
        fun token hmem => Value.fault?_eq_none_iff.mpr (hbefore token hmem)⟩
  · intro arguments
    have hsound : (∀ token ∈ looked, Value.Sound spell.scaling token) ↔
        looked.findSome? (Value.fault? spell.scaling) = none := by
      simp only [List.findSome?_eq_none_iff, Value.fault?_eq_none_iff]
    rw [hstrict, hsound]
    cases looked.findSome? (Value.fault? spell.scaling) <;> simp [eq_comm]
  · intro other hscaling hfirst hletters strictness
    rw [ofSpell, ofSpell, ofFamily_congr hscaling hfirst hletters, hscaling]

/-- A confusion with a leading token that does not resolve falls back to M leniently and is refused
strictly, whatever stands under a letter that it does not read. -/
theorem ofSpell_strict_or_lenient_confuse :
    let spell := Spell.ofCode ⟨"CON\x7bR11\x7dM\x7bmax(3)\x7dD\x7bR12\x7d-111"⟩
    let other := Spell.ofCode ⟨"CON\x7bR11\x7dT\x7bR99\x7dM\x7bmax(3)\x7dD\x7bR12\x7d-111"⟩
    other.scaling = spell.scaling ∧ other.first = spell.first ∧
      (∀ letter ∈ Family.confuse.letters, other.token? letter = spell.token? letter) ∧
      ofSpell .lenient .confuse other =
        .ok ⟨.of 1 1 1, .confuse (some (.sequence [1, 2, 3])) none⟩ ∧
      ofSpell .strict .confuse other = .error (.unknownBand 11) := by
  intro spell other
  have hscaling : other.scaling = spell.scaling := by decide
  have hfirst : other.first = spell.first := by decide
  have hmarked : other.token? 'M' = spell.token? 'M' := by decide
  have hdamage : other.token? 'D' = spell.token? 'D' := by decide
  have hletters : ∀ letter ∈ Family.confuse.letters, other.token? letter = spell.token? letter :=
    List.forall_mem_cons.mpr ⟨hmarked, List.forall_mem_singleton.mpr hdamage⟩
  obtain ⟨hlenient, hstrict, -, hsame⟩ := ofSpell_strict_or_lenient .confuse spell
  have hread := hsame other hscaling hfirst hletters
  have hfault : Value.ofToken spell.scaling "R11" = .error (.unknownBand 11) := rfl
  have hdigits : spell.scaling = .of 1 1 1 := by decide
  have htaken : Params.ofTokens spell Base.confuse.family =
      .confuse (some (.sequence [1, 2, 3])) none := by decide
  refine ⟨hscaling, hfirst, hletters, ?_, ?_⟩
  · rw [hread, hlenient, hdigits, htaken]
  · rw [hread]
    exact (hstrict _).mpr ⟨[], "R11", _, rfl, List.forall_mem_nil _, hfault⟩

end Arguments

end DiceDuel
