import LedgerWire.Path.Json
import LedgerWire.Proofs.Account.Address
import LedgerWire.Proofs.Json.Members
import LedgerWire.Proofs.Path.Wire
import LedgerWire.Proofs.Success

namespace LedgerWire

/-!
Path sets read back from JSON: each part of a hop is found under its own name, and its type bits
are passed over. Empty paths are kept.
-/

namespace Hop

theorem readMember_printed {α : Type} {members : List (String × Json)} {key : String}
    {read : String → Except ValueError α} {print : α → String} {part : Option α}
    (found : Json.lookup members key = part.map fun value => .string (print value))
    (reads : ∀ value, part = some value → read (print value) = .ok value) :
    readMember members key read = .ok part := by
  cases part with
  | none => rw [readMember, found, Option.map_none]
  | some value =>
      rw [readMember, found, Option.map_some]
      simp only [reads value rfl, Except.map]

theorem toJson_lookups (hop : Hop) :
    ∃ members, hop.toJson = .object members ∧
      Json.lookup members "account" =
        hop.account.map (fun account => .string account.toAddress) ∧
      Json.lookup members "currency" =
        hop.currency.map (fun currency => .string currency.toText) ∧
      Json.lookup members "issuer" = hop.issuer.map (fun issuer => .string issuer.toAddress) := by
  refine ⟨_, rfl, ?_⟩
  obtain ⟨account, currency, issuer⟩ := hop
  cases account <;> cases currency <;> cases issuer <;> simp

theorem ofJson_toJson {hop : Hop} (named : hop ≠ empty)
    (readable : ∀ currency, hop.currency = some currency →
      Currency.parse currency.toText = .ok currency) : ofJson hop.toJson = .ok hop := by
  obtain ⟨members, printed, account, currency, issuer⟩ := toJson_lookups hop
  have accountRead := readMember_printed account fun value _ => value.parse_toAddress
  have currencyRead := readMember_printed currency readable
  have issuerRead := readMember_printed issuer fun value _ => value.parse_toAddress
  have some : hop.typeBits ≠ 0 := fun none => named (typeBits_eq_zero.mp none)
  simp [printed, ofJson, accountRead, currencyRead, issuerRead, some, bind, Except.bind, pure,
    Except.pure]

end Hop

theorem PathSet.ofJson_toJson {paths : PathSet} (named : ∀ path ∈ paths, Hop.empty ∉ path)
    (readable : ∀ path ∈ paths, ∀ hop ∈ path, ∀ currency, hop.currency = some currency →
      Currency.parse currency.toText = .ok currency) :
    PathSet.ofJson (PathSet.toJson paths) = .ok paths := by
  refine mapM_map_eq_ok fun path found => ?_
  refine mapM_map_eq_ok fun hop member => ?_
  refine Hop.ofJson_toJson (fun isEmpty => ?_) (readable path found hop member)
  exact named path found (isEmpty ▸ member)

end LedgerWire
