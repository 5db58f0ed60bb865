import ProxyPlane.Proofs.Address.Grammar
import ProxyPlane.Proofs.Text.Digits
import ProxyPlane.Validation

/-!
# Addresses to listen on

The checks of an address come one after the other, so that each error presupposes that all checks
before it have passed.

## What is here

* `Validation.behindSlash`, an address without the network in front of it.
* `Validation.IsListenAddress`, what an address must be, and `ListenError.Arises`, what each error
  says of an address.
* `listenAddress_eq_ok_iff` and `listenAddress_eq_error_iff`: the check says just that.
* `address_grammars`: the texts that are split, those that are listened on, and the errors of all
  others.
-/

set_option autoImplicit false
namespace ProxyPlane

namespace Validation

/-- What stands behind the first slash of an address; all of it if it has none. -/
def behindSlash (addr : String) : String :=
  if '/' ∈ addr.toList then String.ofList (addr.toList.dropWhile (· != '/')).tail else addr

/-- A port from 1 to 65535, and no host or an IP literal. -/
def IsListenAddress (addr : String) : Prop :=
  ∃ host port n, Address.Divides addr host port ∧ Numeral.Writes port n ∧ 1 ≤ n ∧ n ≤ 65535 ∧
    (host = "" ∨ Ip.isLiteral host = true)

end Validation

/-- What an error says of an address to listen on: it does not divide, or its port is no numeral of
64 bits, or out of range, or its host is not an IP literal. -/
def ListenError.Arises (addr : String) : ListenError → Prop
  | .format source => (∀ host port, ¬Address.Divides addr host port) ∧ source.Arises addr
  | .badPort text =>
    (∃ host, Address.Divides addr host text) ∧ ∀ n, Numeral.Writes text n → 2 ^ 64 ≤ n
  | .portRange n =>
    ∃ host port, Address.Divides addr host port ∧ Numeral.Writes port n ∧ n < 2 ^ 64 ∧
      (n = 0 ∨ 65535 < n)
  | .ip host =>
    (∃ port n, Address.Divides addr host port ∧ Numeral.Writes port n ∧ 1 ≤ n ∧ n ≤ 65535) ∧
      host ≠ "" ∧ Ip.isLiteral host = false

namespace Validation

variable {addr : String}

theorem withoutNetwork_eq (addr : String) : withoutNetwork addr = behindSlash addr := by
  rw [withoutNetwork, behindSlash]
  cases hcut : cutFirst? '/' addr.toList with
  | none => rw [if_neg (cutFirst?_eq_none.1 hcut)]
  | some p =>
    obtain ⟨network, rest⟩ := p
    obtain ⟨haddr, hnetwork⟩ := cutFirst?_eq_some.1 hcut
    have hdrop : (network ++ '/' :: rest).dropWhile (· != '/') = '/' :: rest := by
      rw [List.dropWhile_append_of_pos]
      · simp
      · intro c hc
        simpa using ne_of_mem_of_not_mem hc hnetwork
    rw [haddr, if_pos (by simp), hdrop, List.tail_cons]

section Checks

variable {host port : String} {n : Nat}

/-- An address whose port is no number of 64 bits. -/
theorem listenAddress_of_large (h : Address.Divides (behindSlash addr) host port)
    (hport : ∀ n, Numeral.Writes port n → 2 ^ 64 ≤ n) :
    listenAddress addr = .error (.badPort port) := by
  rw [listenAddress, withoutNetwork_eq, Address.split_eq_ok_iff.2 h]
  simp [Numeral.u64?_eq_none_iff.2 hport]

/-- The checks that are left for an address whose port is a number. -/
theorem listenAddress_of_writes (h : Address.Divides (behindSlash addr) host port)
    (hport : Numeral.Writes port n) (hn : n < 2 ^ 64) :
    listenAddress addr =
      if n < 1 ∨ 65535 < n then .error (.portRange n)
      else if !host.isEmpty && !Ip.isLiteral host then .error (.ip host) else .ok () := by
  rw [listenAddress, withoutNetwork_eq, Address.split_eq_ok_iff.2 h]
  simp only [Numeral.u64?_eq_some_iff.2 ⟨hport, hn⟩]

end Checks

/-- **Which addresses are listened on.** -/
theorem listenAddress_eq_ok_iff :
    listenAddress addr = .ok () ↔ IsListenAddress (behindSlash addr) := by
  constructor
  · intro h
    cases hsplit : Address.split (behindSlash addr) with
    | error e =>
      rw [listenAddress, withoutNetwork_eq, hsplit] at h
      cases h
    | ok p =>
      have hdivides := Address.split_eq_ok_iff.1 hsplit
      cases hport : Numeral.u64? p.2 with
      | none =>
        rw [listenAddress_of_large hdivides (Numeral.u64?_eq_none_iff.1 hport)] at h
        cases h
      | some n =>
        obtain ⟨hwrites, hbound⟩ := Numeral.u64?_eq_some_iff.1 hport
        rw [listenAddress_of_writes hdivides hwrites hbound] at h
        split_ifs at h with hrange hhost
        refine ⟨p.1, p.2, n, hdivides, hwrites, by omega, by omega, ?_⟩
        simpa [Decidable.or_iff_not_imp_left] using hhost
  · rintro ⟨host, port, n, hdivides, hwrites, hlow, hhigh, hhost⟩
    rw [listenAddress_of_writes hdivides hwrites (by omega), if_neg (by omega), if_neg]
    rcases hhost with rfl | hhost
    · simp
    · simp [hhost]

theorem arises_of_listenAddress {e : ListenError} (h : listenAddress addr = .error e) :
    e.Arises (behindSlash addr) := by
  cases hsplit : Address.split (behindSlash addr) with
  | error source =>
    rw [listenAddress, withoutNetwork_eq, hsplit] at h
    cases h
    have harises := Address.arises_of_split hsplit
    exact ⟨fun host port => Address.not_divides_of_arises harises, harises⟩
  | ok p =>
    have hdivides := Address.split_eq_ok_iff.1 hsplit
    cases hport : Numeral.u64? p.2 with
    | none =>
      have hlarge := Numeral.u64?_eq_none_iff.1 hport
      rw [listenAddress_of_large hdivides hlarge] at h
      cases h
      exact ⟨⟨p.1, hdivides⟩, hlarge⟩
    | some n =>
      obtain ⟨hwrites, hbound⟩ := Numeral.u64?_eq_some_iff.1 hport
      rw [listenAddress_of_writes hdivides hwrites hbound] at h
      split_ifs at h with hrange hhost
      · cases h
        exact ⟨p.1, p.2, hdivides, hwrites, hbound, by omega⟩
      · cases h
        exact ⟨⟨p.2, n, hdivides, hwrites, by omega, by omega⟩, by simpa using hhost⟩

/-- **An error is reported just for the addresses of which it is to be said.** -/
theorem listenAddress_eq_error_iff {e : ListenError} :
    listenAddress addr = .error e ↔ e.Arises (behindSlash addr) := by
  refine ⟨arises_of_listenAddress, fun h => ?_⟩
  cases e with
  | format source =>
    rw [listenAddress, withoutNetwork_eq, Address.split_eq_error_iff.2 h.2]
  | badPort text =>
    obtain ⟨⟨host, hdivides⟩, hlarge⟩ := h
    exact listenAddress_of_large hdivides hlarge
  | portRange n =>
    obtain ⟨host, port, hdivides, hport, hbound, hrange⟩ := h
    rw [listenAddress_of_writes hdivides hport hbound, if_pos (by omega)]
  | ip host =>
    obtain ⟨⟨port, n, hdivides, hport, hlow, hhigh⟩, hne, hliteral⟩ := h
    rw [listenAddress_of_writes hdivides hport (by omega), if_neg (by omega),
      if_pos (by simp [hne, hliteral])]

/-- **The grammars of addresses**, with the errors of the texts outside of them. -/
theorem address_grammars (address : String) :
    (∀ host port, Address.split address = .ok (host, port) ↔ Address.Divides address host port) ∧
      (∀ e : AddressError, Address.split address = .error e ↔ e.Arises address) ∧
      (listenAddress address = .ok () ↔ IsListenAddress (behindSlash address)) ∧
      ∀ e : ListenError, listenAddress address = .error e ↔ e.Arises (behindSlash address) :=
  ⟨fun _ _ => Address.split_eq_ok_iff, fun _ => Address.split_eq_error_iff,
    listenAddress_eq_ok_iff, fun _ => listenAddress_eq_error_iff⟩

/-- A port may have a plus sign and zeros in front. -/
example : listenAddress "tcp/[::1]:+02019" = .ok () := by decide +kernel

end Validation
end ProxyPlane
