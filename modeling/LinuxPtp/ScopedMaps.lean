import Mathlib.Data.List.Induction
import Mathlib.Logic.Function.Basic

/-!
# Maps with scopes

A name has a value in every scope, or outside of the scopes for those that have none of their own.
What is found after a sequence of settings is the last one of the scope, or else the last one
outside.
-/

namespace ScopedMaps

universe u v w
variable {σ : Type u} {ν : Type v} {β : Type w}

/-- Values in scopes, and outside. -/
structure ScopedMap (σ : Type u) (ν : Type v) (β : Type w) where
  inner : σ → ν → Option β
  outer : ν → Option β

/-- A name gets a value in a scope, or outside. -/
structure Setting (σ : Type u) (ν : Type v) (β : Type w) where
  scope : Option σ
  name : ν
  value : β

/-- Nothing has a value. -/
def empty : ScopedMap σ ν β := ⟨fun _ _ => none, fun _ => none⟩

/-- What a name stands for in a scope, or outside. -/
def ScopedMap.find (map : ScopedMap σ ν β) : Option σ → ν → Option β
  | none, name => map.outer name
  | some scope, name => (map.inner scope name).or (map.outer name)

section Settings

variable [DecidableEq σ] [DecidableEq ν]

/-- Make a setting. -/
def ScopedMap.set (map : ScopedMap σ ν β) (setting : Setting σ ν β) : ScopedMap σ ν β :=
  match setting.scope with
  | none => ⟨map.inner, Function.update map.outer setting.name (some setting.value)⟩
  | some scope =>
    let own := Function.update (map.inner scope) setting.name (some setting.value)
    ⟨Function.update map.inner scope own, map.outer⟩

/-- The last value of a name in one scope, or outside. -/
def last (settings : List (Setting σ ν β)) (scope : Option σ) (name : ν) : Option β :=
  (settings.filterMap fun setting =>
    if setting.scope = scope ∧ setting.name = name then some setting.value else none).getLast?

variable {map : ScopedMap σ ν β} {setting : Setting σ ν β} {settings : List (Setting σ ν β)}
  {name : ν}

theorem last_append (settings : List (Setting σ ν β)) (setting : Setting σ ν β) (scope : Option σ)
    (name : ν) : last (settings ++ [setting]) scope name =
      if setting.scope = scope ∧ setting.name = name then some setting.value
      else last settings scope name := by
  rw [last, List.filterMap_append, List.getLast?_append]
  by_cases here : setting.scope = scope ∧ setting.name = name <;> simp [here, last]

theorem set_outer : (map.set setting).outer name =
    if setting.scope = none ∧ setting.name = name then some setting.value else map.outer name := by
  obtain ⟨scope, mine, value⟩ := setting
  cases scope with
  | none => simp [ScopedMap.set, Function.update_apply, eq_comm]
  | some scope => simp [ScopedMap.set]

theorem set_inner {scope : σ} : (map.set setting).inner scope name =
    if setting.scope = some scope ∧ setting.name = name then some setting.value
    else map.inner scope name := by
  obtain ⟨mine, own, value⟩ := setting
  cases mine with
  | none => simp [ScopedMap.set]
  | some mine =>
    by_cases here : mine = scope
    · subst here
      simp [ScopedMap.set, Function.update_apply, eq_comm]
    · have other : scope ≠ mine := fun same => here same.symm
      simp [ScopedMap.set, here, other]

/-- A setting outside changes nothing inside a scope. -/
theorem inner_set_none {scope : σ} {mine : ν} {value : β} :
    (map.set ⟨none, mine, value⟩).inner scope name = map.inner scope name := by
  rw [set_inner, if_neg fun both => nomatch both.1]

/-- A setting inside a scope changes nothing outside. -/
theorem outer_set_some {scope : σ} {mine : ν} {value : β} :
    (map.set ⟨some scope, mine, value⟩).outer name = map.outer name := by
  rw [set_outer, if_neg fun both => nomatch both.1]

/-- After settings, every name has its last value. -/
theorem foldl_set (settings : List (Setting σ ν β)) :
    (∀ name, (settings.foldl ScopedMap.set empty).outer name = last settings none name) ∧
      ∀ scope name, (settings.foldl ScopedMap.set empty).inner scope name =
        last settings (some scope) name := by
  induction settings using List.reverseRecOn with
  | nil => exact ⟨fun _ => rfl, fun _ _ => rfl⟩
  | append_singleton settings setting inductionHypothesis =>
    rw [List.foldl_append, List.foldl_cons, List.foldl_nil]
    constructor
    · intro name
      rw [set_outer, last_append, inductionHypothesis.1]
    · intro scope name
      rw [set_inner, last_append, inductionHypothesis.2]

/-- The last value of a name in a scope, or else outside. -/
def latest (settings : List (Setting σ ν β)) (scope : Option σ) (name : ν) : Option β :=
  (scope.bind fun own => last settings (some own) name).or (last settings none name)

/-- What is found after settings. -/
theorem find_foldl (settings : List (Setting σ ν β)) (scope : Option σ) (name : ν) :
    (settings.foldl ScopedMap.set empty).find scope name = latest settings scope name := by
  obtain ⟨outer, inner⟩ := foldl_set settings
  cases scope with
  | none => exact outer name
  | some scope => rw [ScopedMap.find, inner, outer, latest, Option.bind_some]

/-- A setting reaches its own scope, and from outside those that have no value of their own. -/
def Reaches (map : ScopedMap σ ν β) (setting : Setting σ ν β) (scope : Option σ) (name : ν) : Prop :=
  setting.name = name ∧ (setting.scope = scope ∨
    setting.scope = none ∧ ∀ own, scope = some own → map.inner own name = none)

/-- A setting is found exactly where it reaches. -/
theorem find_set (scope : Option σ) (name : ν) :
    (Reaches map setting scope name → (map.set setting).find scope name = some setting.value) ∧
      (¬ Reaches map setting scope name → (map.set setting).find scope name = map.find scope name) := by
  constructor
  · rintro ⟨mine, same | ⟨outside, absent⟩⟩
    · cases scope with
      | none => rw [ScopedMap.find, set_outer, if_pos ⟨same, mine⟩]
      | some scope => rw [ScopedMap.find, set_inner, if_pos ⟨same, mine⟩]; rfl
    · cases scope with
      | none => rw [ScopedMap.find, set_outer, if_pos ⟨outside, mine⟩]
      | some scope =>
        have differ : setting.scope ≠ some scope := by rw [outside]; exact nofun
        rw [ScopedMap.find, set_inner, if_neg fun both => differ both.1, absent scope rfl, set_outer,
          if_pos ⟨outside, mine⟩]
        rfl
  · intro elsewhere
    rw [Reaches, not_and] at elsewhere
    by_cases mine : setting.name = name
    · obtain ⟨differ, owned⟩ := not_or.mp (elsewhere mine)
      cases scope with
      | none => rw [ScopedMap.find, set_outer, if_neg (fun both => differ both.1)]; rfl
      | some scope =>
        rw [ScopedMap.find, ScopedMap.find, set_inner, if_neg (fun both => differ both.1), set_outer]
        by_cases outside : setting.scope = none
        · obtain ⟨value, present⟩ : ∃ value, map.inner scope name = some value := by
            rw [← Option.ne_none_iff_exists']
            exact fun absent => owned ⟨outside, fun own same => Option.some.inj same ▸ absent⟩
          rw [present]
          rfl
        · rw [if_neg (fun both => outside both.1)]
    · cases scope with
      | none => rw [ScopedMap.find, set_outer, if_neg (fun both => mine both.2)]; rfl
      | some scope =>
        rw [ScopedMap.find, ScopedMap.find, set_inner, set_outer, if_neg (fun both => mine both.2),
          if_neg (fun both => mine both.2)]

end Settings

end ScopedMaps
