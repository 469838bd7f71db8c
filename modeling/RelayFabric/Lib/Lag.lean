/- layer: library
   digest: A consumer that is behind its producer by a queue of events. -/

namespace RelayFabric.Lib

variable {χ ε τ : Type} {take : χ → ε → τ → τ} {expects : ε → τ → Prop} {goal goal' : τ → Prop}
  {events : List ε} {t u : τ}

/-- Each event comes in a state that expects it, and after the last one the state is as wanted,
whatever the consumer chooses on the way. -/
def Catches (take : χ → ε → τ → τ) (expects : ε → τ → Prop) (goal : τ → Prop) : List ε → τ → Prop
  | [], t => goal t
  | e :: rest, t => expects e t ∧ ∀ choice, Catches take expects goal rest (take choice e t)

namespace Catches

theorem emit {more : List ε} (emits : ∀ t, goal t → Catches take expects goal' more t)
    (catches : Catches take expects goal events t) :
    Catches take expects goal' (events ++ more) t := by
  induction events generalizing t with
  | nil => exact emits t catches
  | cons first rest ih =>
    obtain ⟨expected, later⟩ := catches
    exact ⟨expected, fun choice => ih (later choice)⟩

/-- The consumer changes while events wait, in a way that each of them respects; the relation may
look at the events still to come. -/
theorem relate {rel : List ε → τ → τ → Prop}
    (respects : ∀ e rest t u, rel (e :: rest) t u → expects e t →
      expects e u ∧ ∀ choice, rel rest (take choice e t) (take choice e u))
    (after : ∀ t u, rel [] t u → goal t → goal' u) (related : rel events t u)
    (catches : Catches take expects goal events t) : Catches take expects goal' events u := by
  induction events generalizing t u with
  | nil => exact after t u related catches
  | cons first rest ih =>
    obtain ⟨expected, later⟩ := catches
    obtain ⟨still, next⟩ := respects first rest t u related expected
    exact ⟨still, fun choice => ih (next choice) (later choice)⟩

theorem sees {said : τ → Prop} (choice : χ) (keeps : ∀ choice e t, said t → said (take choice e t))
    (catches : Catches take expects goal events t) (spoken : said t) : ∃ u, goal u ∧ said u := by
  induction events generalizing t with
  | nil => exact ⟨t, catches, spoken⟩
  | cons first rest ih => exact ih (catches.2 choice) (keeps choice first t spoken)

end Catches

end RelayFabric.Lib
