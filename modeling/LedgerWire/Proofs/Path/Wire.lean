import LedgerWire.Path.Wire
import LedgerWire.Proofs.Wire.Taking
import LedgerWire.Proofs.Wire.Writing

namespace LedgerWire

open Reader

/-!
Path sets read back. The type byte of a hop that names something tells its parts, and is neither
the byte that separates paths nor the one that ends the set. A path set is read without its empty
paths. Conversely a hop that was read is written as the bytes it was read from, and a path set that
was read has no empty path and no empty hop.
-/

namespace Hop

theorem typeBits_parts : ∀ account currency issuer : Bool,
    let bits : UInt8 := (if account then accountBit else 0) + (if currency then currencyBit else 0) +
      (if issuer then issuerBit else 0)
    knownBits bits = true ∧ hasBit bits accountBit = account ∧ hasBit bits currencyBit = currency ∧
      hasBit bits issuerBit = issuer ∧ bits ≠ PathSet.separator := by
  decide

theorem typeBits_eq_zero {hop : Hop} : hop.typeBits = 0 ↔ hop = empty := by
  obtain ⟨account, currency, issuer⟩ := hop
  constructor
  · intro (none : (if account.isSome then accountBit else 0) +
      (if currency.isSome then currencyBit else 0) + (if issuer.isSome then issuerBit else 0) = 0)
    have nothing : ∀ account currency issuer : Bool,
        (if account then accountBit else 0) + (if currency then currencyBit else 0) +
          (if issuer then issuerBit else 0) = 0 →
        account = false ∧ currency = false ∧ issuer = false := by
      decide
    obtain ⟨noAccount, noCurrency, noIssuer⟩ := nothing _ _ _ none
    rw [Option.isSome_eq_false_iff, Option.isNone_iff_eq_none] at noAccount noCurrency noIssuer
    rw [noAccount, noCurrency, noIssuer, empty]
  · rintro ⟨⟩
    rfl

variable {α : Type}

theorem reads_part {bits bit : UInt8} {part : Option α} (named : hasBit bits bit = part.isSome)
    (context : String) (build : Octets 20 → α) (octets : α → Octets 20)
    (inverse : ∀ value, build (octets value) = value) :
    Reads (readPart bits bit context build) (part.elim [] fun value => (octets value).toList)
      part := by
  simp only [readPart]
  rw [named]
  cases part with
  | none => exact Reads.pure none
  | some value =>
      refine (Reads.octets context (octets value)).map (Reads.answer ?_)
      rw [inverse]

theorem reads_from (hop : Hop) : Reads (readFrom hop.typeBits) hop.partBytes hop := by
  obtain ⟨known, account, currency, issuer, _⟩ :=
    typeBits_parts hop.account.isSome hop.currency.isSome hop.issuer.isSome
  change knownBits hop.typeBits = true at known
  simp only [readFrom, partBytes]
  rw [if_pos known, List.append_assoc]
  refine (reads_part account _ _ Account.octets fun _ => rfl).bind ?_
  refine (reads_part currency _ _ Currency.octets fun _ => rfl).bind ?_
  exact (reads_part issuer _ _ Account.octets fun _ => rfl).map (Reads.pure hop)

theorem yields_part (bits bit : UInt8) (context : String) (build : Octets 20 → α)
    (octets : α → Octets 20) (inverse : ∀ taken, octets (build taken) = taken) :
    Yields (readPart bits bit context build) fun taken part =>
      (part.elim [] fun value => (octets value).toList) = taken ∧
        part.isSome = hasBit bits bit := by
  simp only [readPart]
  split
  · rename_i named
    refine (Yields.octets 20 context).map ?_
    rintro _ taken rfl
    exact ⟨congrArg Octets.toList (inverse taken), named.symm⟩
  · rename_i unnamed
    exact Yields.pure ⟨rfl, (Bool.eq_false_iff.mpr unnamed).symm⟩

/-- A known type byte is the sum of its bits. -/
theorem typeBits_of_known (bits : UInt8) (known : knownBits bits = true) :
    (if hasBit bits accountBit then accountBit else 0) +
      (if hasBit bits currencyBit then currencyBit else 0) +
        (if hasBit bits issuerBit then issuerBit else 0) = bits := by
  have all : ∀ number < 256, knownBits (UInt8.ofNat number) = true →
      (if hasBit (UInt8.ofNat number) accountBit then accountBit else 0) +
        (if hasBit (UInt8.ofNat number) currencyBit then currencyBit else 0) +
          (if hasBit (UInt8.ofNat number) issuerBit then issuerBit else 0) =
        UInt8.ofNat number := by
    decide +kernel
  have found := all bits.toNat bits.toNat_lt
  rw [UInt8.ofNat_toNat] at found
  exact found known

/-- A hop that was read is written as its type byte and what was read after it. -/
theorem yields_from (bits : UInt8) :
    Yields (readFrom bits) fun taken hop => hop.typeBits = bits ∧ hop.partBytes = taken := by
  simp only [readFrom]
  split
  · rename_i known
    refine (yields_part bits accountBit _ _ Account.octets fun _ => rfl).bind ?_
    rintro _ account ⟨rfl, accountNamed⟩
    refine (yields_part bits currencyBit _ _ Currency.octets fun _ => rfl).bind ?_
    rintro _ currency ⟨rfl, currencyNamed⟩
    refine (yields_part bits issuerBit _ _ Account.octets fun _ => rfl).map ?_
    rintro _ issuer ⟨rfl, issuerNamed⟩
    constructor
    · rw [typeBits, accountNamed, currencyNamed, issuerNamed]
      exact typeBits_of_known bits known
    · exact List.append_assoc _ _ _
  · exact Yields.fail _

end Hop

namespace PathSet

variable {field : String}

/-- The loop that reads a path set. -/
abbrev Advances (before : Progress) (bytes : Bytes) (after : Progress) : Prop :=
  Folds none (· == terminator) readStep before bytes after

theorem advances_hop {hop : Hop} {bytes : Bytes} (written : hop.write field = .ok bytes)
    (progress : Progress) :
    Advances progress bytes ⟨progress.closed, hop :: progress.opened⟩ := by
  simp only [Hop.write] at written
  split at written
  · exact absurd written Output.fail_ne_ok
  · rename_i named
    rw [← Output.ok_inj.mp written]
    obtain ⟨_, _, _, _, apart⟩ :=
      Hop.typeBits_parts hop.account.isSome hop.currency.isSome hop.issuer.isSome
    change hop.typeBits ≠ separator at apart
    refine Folds.single (beq_eq_false_iff_ne.mpr named) ?_
    simp only [readStep]
    rw [if_neg apart]
    exact (Hop.reads_from hop).map (Reads.pure _)

theorem advances_path {path : Path} {bytes : Bytes} (written : writePath field path = .ok bytes)
    (progress : Progress) :
    Advances progress bytes ⟨progress.closed, path.reverse ++ progress.opened⟩ := by
  induction path generalizing progress bytes with
  | nil =>
      rw [← Output.ok_inj.mp written]
      exact Folds.refl progress
  | cons hop rest ih =>
      obtain ⟨front, back, hopWritten, restWritten, rfl⟩ := Output.append_eq_ok.mp written
      have first := advances_hop hopWritten progress
      have others := ih restWritten ⟨progress.closed, hop :: progress.opened⟩
      rw [List.reverse_cons, List.append_assoc]
      exact first.trans others

theorem advances_separator {progress : Progress} :
    Advances progress [separator] progress.close := by
  refine Folds.single (by decide) ?_
  unfold readStep
  rw [if_pos rfl]
  exact Reads.pure _

/-- The paths that a reader keeps: those with a hop. -/
def condensed (paths : PathSet) : PathSet :=
  paths.filter fun path => !path.isEmpty

theorem condensed_eq_self {paths : PathSet} (named : [] ∉ paths) : condensed paths = paths := by
  rw [condensed, List.filter_eq_self]
  intro path member
  cases path with
  | nil => exact absurd member named
  | cons hop rest => rfl

/-- Closing a path keeps it if it has a hop. -/
theorem close_opened (closed : List Path) (path : Path) :
    Progress.close ⟨closed, path.reverse ++ []⟩ = ⟨(condensed [path]).reverse ++ closed, []⟩ := by
  cases path with
  | nil => rfl
  | cons hop rest => simp [Progress.close, condensed]

theorem condensed_cons (path : Path) (rest : PathSet) :
    condensed (path :: rest) = condensed [path] ++ condensed rest :=
  List.filter_append [path] rest

/-- The paths of a set, read on from closed paths. -/
theorem advances_paths {paths : PathSet} {bytes : Bytes}
    (written : writePaths field paths = .ok bytes) (closed : List Path) :
    ∃ after, Advances ⟨closed, []⟩ bytes after ∧
      after.finish = closed.reverse ++ condensed paths := by
  induction paths generalizing closed bytes with
  | nil =>
      rw [← Output.ok_inj.mp written]
      exact ⟨_, Folds.refl _, (List.append_nil _).symm⟩
  | cons path rest ih =>
      cases rest with
      | nil =>
          refine ⟨_, advances_path written ⟨closed, []⟩, ?_⟩
          change (Progress.close ⟨closed, path.reverse ++ []⟩).closed.reverse = _
          rw [close_opened, List.reverse_append, List.reverse_reverse]
      | cons second others =>
          obtain ⟨_, back, separated, othersWritten, rfl⟩ := Output.append_eq_ok.mp written
          obtain ⟨front, _, pathWritten, mark, rfl⟩ := Output.append_eq_ok.mp separated
          rw [← Output.ok_inj.mp mark]
          have first := advances_path pathWritten ⟨closed, []⟩
          have between := @advances_separator ⟨closed, path.reverse ++ []⟩
          rw [close_opened] at between
          obtain ⟨after, following, finish⟩ :=
            ih othersWritten ((condensed [path]).reverse ++ closed)
          refine ⟨after, (first.trans between).trans following, ?_⟩
          rw [finish, List.reverse_append, List.reverse_reverse, List.append_assoc,
            ← condensed_cons]

/-- A written path set is read without its empty paths. -/
theorem reads_write {paths : PathSet} {bytes : Bytes}
    (written : write field paths = .ok bytes) : Reads read bytes (condensed paths) := by
  obtain ⟨front, _, pathsWritten, mark, rfl⟩ := Output.append_eq_ok.mp written
  rw [← Output.ok_inj.mp mark]
  obtain ⟨after, advances, finish⟩ := advances_paths pathsWritten []
  exact (advances.reads rfl).map (Reads.answer finish)

theorem cause_writeHop (hop : Hop) :
    (hop.write field).cause = if hop = Hop.empty then some (.emptyPathHop field) else none := by
  by_cases unnamed : hop = Hop.empty
  · simp [Hop.write, Hop.typeBits_eq_zero, unnamed]
  · simp [Hop.write, Hop.typeBits_eq_zero, unnamed]

theorem cause_writePath (path : Path) :
    (writePath field path).cause =
      if Hop.empty ∈ path then some (.emptyPathHop field) else none := by
  induction path with
  | nil => simp [writePath]
  | cons hop rest ih =>
      rw [writePath, Output.cause_append, cause_writeHop, ih]
      by_cases unnamed : Hop.empty = hop
      · simp [unnamed]
      · simp [unnamed, Ne.symm unnamed]

theorem cause_write (paths : PathSet) :
    (write field paths).cause =
      if ∃ path ∈ paths, Hop.empty ∈ path then some (.emptyPathHop field) else none := by
  rw [write, Output.cause_append, Output.cause_ok, Option.or_none]
  induction paths with
  | nil => simp [writePaths]
  | cons path rest ih =>
      cases rest with
      | nil => simp [writePaths, cause_writePath]
      | cons second others =>
          rw [writePaths, Output.cause_append, Output.cause_append, cause_writePath, ih]
          · by_cases unnamed : Hop.empty ∈ path
            · simp [unnamed]
            · simp [unnamed]
          · exact List.cons_ne_nil second others

/-- A path set whose hops all name something is written. -/
theorem exists_write {paths : PathSet} (named : ∀ path ∈ paths, Hop.empty ∉ path) :
    ∃ bytes, write field paths = .ok bytes := by
  rw [← Output.cause_eq_none, cause_write, if_neg]
  intro ⟨path, member, unnamed⟩
  exact named path member unnamed

/-- No path and no hop is empty. -/
def Named (paths : PathSet) : Prop :=
  [] ∉ paths ∧ ∀ path ∈ paths, Hop.empty ∉ path

/-- What the reader keeps: the closed paths are named, and so are the hops of the open one. -/
structure Progress.Named (progress : Progress) : Prop where
  closed : PathSet.Named progress.closed
  opened : Hop.empty ∉ progress.opened

theorem Progress.Named.close {progress : Progress} (named : progress.Named) :
    progress.close.Named := by
  rw [Progress.close]
  split
  · exact named
  · rename_i some
    refine ⟨⟨?_, ?_⟩, List.not_mem_nil⟩
    · rw [List.mem_cons, not_or]
      refine ⟨fun isEmpty => some ?_, named.closed.1⟩
      rw [List.reverse_eq_nil_iff.mp isEmpty.symm]
      rfl
    · intro path member
      rcases List.mem_cons.mp member with rfl | old
      · rw [List.mem_reverse]
        exact named.opened
      · exact named.closed.2 path old

theorem Progress.Named.finish {progress : Progress} (named : progress.Named) :
    PathSet.Named progress.finish := by
  obtain ⟨nonempty, hops⟩ := named.close.closed
  refine ⟨fun member => nonempty (List.mem_reverse.mp member), fun path member => ?_⟩
  exact hops path (List.mem_reverse.mp member)

theorem yields_step {progress : Progress} {first : UInt8} (some : first ≠ terminator)
    (named : progress.Named) : Yields (readStep progress first) fun _ next => next.Named := by
  rw [readStep]
  split
  · exact Yields.pure named.close
  · refine (Hop.yields_from first).map ?_
    rintro _ hop ⟨bits, _⟩
    refine ⟨named.closed, ?_⟩
    rw [List.mem_cons, not_or]
    refine ⟨fun isEmpty => some ?_, named.opened⟩
    rw [← bits]
    exact Hop.typeBits_eq_zero.mpr isEmpty.symm

/-- A path set that was read has no empty path and no empty hop. -/
theorem yields_read : Yields read fun _ paths => PathSet.Named paths := by
  have start : Progress.start.Named := ⟨⟨List.not_mem_nil, fun _ => nofun⟩, List.not_mem_nil⟩
  have loop := @Yields.fold Progress none (· == terminator) readStep
    (fun _ progress => progress.Named) Progress.start start fun _ _ _ notEnd named =>
      yields_step (beq_eq_false_iff_ne.mp notEnd) named
  refine loop.map ?_
  rintro taken progress (⟨_, named⟩ | ⟨_, _, _, _, named⟩)
  · exact named.finish
  · exact named.finish

/-- A path set whose hops all name something is written, and read back as its paths that have a hop,
whatever follows. -/
theorem exists_reads (field : String) {paths : PathSet}
    (named : ∀ path ∈ paths, Hop.empty ∉ path) :
    ∃ bytes, write field paths = .ok bytes ∧ Reads read bytes (condensed paths) := by
  obtain ⟨bytes, written⟩ : ∃ bytes, write field paths = .ok bytes := exists_write named
  exact ⟨bytes, written, reads_write written⟩

/-- What is written of a path set is read back as its paths that have a hop, in order and with all
their hops, and nothing that follows is taken. What is read of any input has no empty path and no
empty hop, and is read back as it is. -/
theorem reads_back_condensed (field : String) :
    (∀ paths : PathSet, (∀ path ∈ paths, Hop.empty ∉ path) →
      ∃ bytes, write field paths = .ok bytes ∧
        ∀ suffix, read.run (bytes ++ suffix) = .done (condensed paths) suffix) ∧
    ∀ input paths rest, read.run input = .done paths rest →
      [] ∉ paths ∧ (∀ path ∈ paths, Hop.empty ∉ path) ∧
        ∃ bytes, write field paths = .ok bytes ∧
          ∀ suffix, read.run (bytes ++ suffix) = .done paths suffix := by
  refine ⟨fun paths named => exists_reads field named, ?_⟩
  intro input paths rest succeeded
  obtain ⟨_, _, nonempty, named⟩ := yields_read input paths rest succeeded
  obtain ⟨bytes, written, reads⟩ := exists_reads field named
  rw [condensed_eq_self nonempty] at reads
  exact ⟨nonempty, named, bytes, written, reads⟩

/-- Empty paths at both ends and in between, and parts that hold the bytes of both marks. -/
def scatteredPaths : PathSet :=
  [[], [⟨some ⟨⟨List.replicate 20 separator, rfl⟩⟩, none, none⟩], [],
    [⟨none, some NativeAsset.primary.currency, some Account.zero⟩], []]

/-- The paths with a hop, read on after a leading separator and up to the end of input. -/
def scatteredBytes : Bytes :=
  separator :: 0x01 :: List.replicate 20 separator ++ separator :: separator :: 0x30 ::
    List.replicate 40 terminator

theorem reads_back_condensed_scattered :
    (∀ path ∈ scatteredPaths, Hop.empty ∉ path) ∧
      (∃ bytes, write "Paths" scatteredPaths = .ok bytes ∧
        ∀ suffix, read.run (bytes ++ suffix) = .done (condensed scatteredPaths) suffix) ∧
      read.run scatteredBytes = .done (condensed scatteredPaths) [] ∧
      ∃ bytes, write "Paths" (condensed scatteredPaths) = .ok bytes ∧
        ∀ suffix, read.run (bytes ++ suffix) = .done (condensed scatteredPaths) suffix := by
  have named : ∀ path ∈ scatteredPaths, Hop.empty ∉ path := by decide
  have taken : read.run scatteredBytes = .done (condensed scatteredPaths) [] := by cbv
  obtain ⟨forth, back⟩ := reads_back_condensed "Paths"
  exact ⟨named, forth scatteredPaths named, taken, (back _ _ _ taken).2.2⟩

end PathSet

end LedgerWire
