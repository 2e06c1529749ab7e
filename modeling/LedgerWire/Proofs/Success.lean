namespace LedgerWire

/-!
When a computation that may fail succeeds: each of its parts did. When it fails: its first part did,
or a later one after that.
-/

variable {ε δ α β : Type} {computed : Except ε α} {value : α}

theorem bind_eq_ok {next : α → Except ε β} {result : β} :
    (computed >>= next) = .ok result ↔ ∃ value, computed = .ok value ∧ next value = .ok result := by
  cases computed with
  | error cause =>
      constructor
      · intro failed
        contradiction
      · rintro ⟨value, failed, _⟩
        contradiction
  | ok value =>
      constructor
      · intro succeeded
        exact ⟨value, rfl, succeeded⟩
      · rintro ⟨_, same, succeeded⟩
        cases same
        exact succeeded

theorem bind_eq_error {next : α → Except ε β} {cause : ε} :
    (computed >>= next) = .error cause ↔
      computed = .error cause ∨ ∃ value, computed = .ok value ∧ next value = .error cause := by
  cases computed with
  | error first =>
      constructor
      · intro failed
        cases failed
        exact Or.inl rfl
      · rintro (failed | ⟨value, succeeded, _⟩)
        · cases failed
          rfl
        · contradiction
  | ok value =>
      constructor
      · intro failed
        exact Or.inr ⟨value, rfl, failed⟩
      · rintro (failed | ⟨_, same, failed⟩)
        · contradiction
        · cases same
          exact failed

theorem map_eq_ok {change : α → β} {result : β} :
    computed.map change = .ok result ↔ ∃ value, computed = .ok value ∧ change value = result := by
  cases computed with
  | error cause => simp [Except.map]
  | ok answered => simp [Except.map]

theorem map_eq_error {change : α → β} {cause : ε} :
    computed.map change = .error cause ↔ computed = .error cause := by
  cases computed with
  | error first => simp [Except.map]
  | ok answered => simp [Except.map]

theorem mapError_eq_ok {change : ε → δ} :
    computed.mapError change = .ok value ↔ computed = .ok value := by
  cases computed with
  | error cause => exact ⟨fun failed => by contradiction, fun failed => by contradiction⟩
  | ok answered =>
      constructor <;>
        · intro same
          cases same
          rfl

theorem mapError_eq_error {change : ε → δ} {cause : δ} :
    computed.mapError change = .error cause ↔
      ∃ inner, computed = .error inner ∧ change inner = cause := by
  cases computed with
  | error inner =>
      constructor
      · intro failed
        cases failed
        exact ⟨inner, rfl, rfl⟩
      · rintro ⟨_, same, rfl⟩
        cases same
        rfl
  | ok answered =>
      constructor
      · intro failed
        contradiction
      · rintro ⟨_, failed, _⟩
        contradiction

theorem exists_of_isOk (isOk : computed.isOk = true) : ∃ value, computed = .ok value := by
  cases computed with
  | error cause => contradiction
  | ok value => exact ⟨value, rfl⟩

/-- Items that are read back one by one are read back as a list. -/
theorem mapM_map_eq_ok {read : β → Except ε α} {print : α → β} {items : List α}
    (reads : ∀ item ∈ items, read (print item) = .ok item) :
    (items.map print).mapM read = .ok items := by
  induction items with
  | nil => rfl
  | cons item rest ih =>
      have first := reads item List.mem_cons_self
      have others := ih fun other member => reads other (List.mem_cons_of_mem _ member)
      rw [List.map_cons, List.mapM_cons]
      exact bind_eq_ok.mpr ⟨item, first, bind_eq_ok.mpr ⟨rest, others, rfl⟩⟩

end LedgerWire
