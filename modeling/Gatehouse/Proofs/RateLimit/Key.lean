import Gatehouse.Proofs.Net.Address
import Gatehouse.RateLimit.Key

/-!
# Keys of addresses

The client of a request has the address that the first of three sources spells (`ClientAddress`). Its
key tells the address, apart from whether an IPv4 address stands for itself or is stood for, and is
never the key of a request without an address.
-/

namespace Gatehouse.KeyFunction

open Net (IpAddress)

variable {r r₁ r₂ : Request} {a a₁ a₂ : IpAddress} {text : Bytes}

/-! ## Where an address is from -/

/-- The first element of the list of addresses that a request was forwarded for spells the address. -/
def Forwarded (r : Request) (a : IpAddress) : Prop :=
  ∃ list element rest, r.headers.firstText? (.literal "x-forwarded-for") = some list ∧
    List.splitOn 0x2C list = element :: rest ∧ address? element = some a

/-- The address is the real one as told by a proxy. -/
def Told (r : Request) (a : IpAddress) : Prop :=
  ∃ text, r.headers.firstText? (.literal "x-real-ip") = some text ∧ address? text = some a

/-- The address of the client: the one that the request was forwarded for, else the real one as told
by a proxy, else the peer's. -/
inductive ClientAddress (r : Request) : IpAddress → Prop
  | forwarded {a : IpAddress} (forwarded : Forwarded r a) : ClientAddress r a
  | told {a : IpAddress} (unforwarded : ∀ b, ¬ Forwarded r b) (told : Told r a) : ClientAddress r a
  | peer {e : Net.Endpoint} (unforwarded : ∀ b, ¬ Forwarded r b) (untold : ∀ b, ¬ Told r b)
    (peer : r.remote = some e) : ClientAddress r e.address

/-- The first piece is what stands in front of the first separator. -/
theorem splitOn_eq_takeWhile (sep : UInt8) (text : Bytes) :
    ∃ rest, List.splitOn sep text = text.takeWhile (· != sep) :: rest := by
  induction text with
  | nil => exact ⟨[], rfl⟩
  | cons b text ih =>
    obtain ⟨rest, hrest⟩ := ih
    rw [List.splitOn_cons_eq_if_modifyHead, hrest]
    by_cases h : b = sep
    · exact ⟨text.takeWhile (· != sep) :: rest, by simp [h]⟩
    · exact ⟨rest, by simp [h]⟩

theorem forwarded_iff :
    ((r.headers.firstText? (.literal "x-forwarded-for")).bind fun list =>
      address? (list.takeWhile (· != 0x2C))) = some a ↔ Forwarded r a := by
  rw [Option.bind_eq_some_iff]
  constructor
  · rintro ⟨list, hlist, haddress⟩
    obtain ⟨rest, hrest⟩ := splitOn_eq_takeWhile 0x2C list
    exact ⟨list, _, rest, hlist, hrest, haddress⟩
  · rintro ⟨list, element, rest, hlist, hrest, haddress⟩
    obtain ⟨rest', hrest'⟩ := splitOn_eq_takeWhile 0x2C list
    rw [hrest, List.cons.injEq] at hrest'
    exact ⟨list, hlist, hrest'.1 ▸ haddress⟩

theorem told_iff :
    (r.headers.firstText? (.literal "x-real-ip")).bind address? = some a ↔ Told r a :=
  Option.bind_eq_some_iff

theorem clientAddress?_eq_some_iff : clientAddress? r = some a ↔ ClientAddress r a := by
  simp only [clientAddress?, Option.orElse_eq_orElse, Option.orElse_eq_or, Option.or_eq_some_iff,
    Option.eq_none_iff_forall_ne_some, ne_eq, forwarded_iff, told_iff, Option.map_eq_some_iff]
  constructor
  · rintro (hforwarded | ⟨hunforwarded, htold | ⟨huntold, e, he, rfl⟩⟩)
    · exact .forwarded hforwarded
    · exact .told hunforwarded htold
    · exact .peer hunforwarded huntold he
  · rintro (hforwarded | ⟨hunforwarded, htold⟩ | ⟨hunforwarded, huntold, he⟩)
    · exact .inl hforwarded
    · exact .inr ⟨hunforwarded, .inl htold⟩
    · exact .inr ⟨hunforwarded, .inr ⟨huntold, _, he, rfl⟩⟩

/-! ## Keys -/

/-- The address of the client has four bytes or eight groups, as the peer's does. -/
theorem ClientAddress.wellFormed (h : ClientAddress r a)
    (hpeer : ∀ e ∈ r.remote, e.address.WellFormed) : a.WellFormed := by
  cases h with
  | forwarded h =>
    obtain ⟨_, _, _, -, -, haddress⟩ := h
    exact IpAddress.wellFormed_of_parse? haddress
  | told _ h =>
    obtain ⟨_, -, haddress⟩ := h
    exact IpAddress.wellFormed_of_parse? haddress
  | peer _ _ h => exact hpeer _ h

theorem key_of_clientAddress (h : ClientAddress r a) : key r .ip = a.canonical.render := by
  rw [key, clientAddress?_eq_some_iff.mpr h]
  rfl

theorem key_of_no_clientAddress (h : ∀ a, ¬ ClientAddress r a) : key r .ip = "" := by
  have hnone : clientAddress? r = none := by
    rw [Option.eq_none_iff_forall_ne_some]
    exact fun a ha => h a (clientAddress?_eq_some_iff.mp ha)
  rw [key, hnone]
  rfl

/-- **Requests have one key exactly if one address is meant by their clients**, however the addresses
are spelled and wherever they are from. The key of a request without an address is empty, and no other
key is. -/
theorem ip_key_eq_iff (hpeer₁ : ∀ e ∈ r₁.remote, e.address.WellFormed)
    (hpeer₂ : ∀ e ∈ r₂.remote, e.address.WellFormed) (h₁ : ClientAddress r₁ a₁)
    (h₂ : ClientAddress r₂ a₂) :
    (key r₁ .ip = key r₂ .ip ↔ ∃ a, a₁.Means a ∧ a₂.Means a) ∧
      (∀ r, (∀ a, ¬ ClientAddress r a) → key r .ip = "") ∧ key r₁ .ip ≠ "" := by
  have hformed₁ := (h₁.wellFormed hpeer₁).canonical
  have hformed₂ := (h₂.wellFormed hpeer₂).canonical
  rw [key_of_clientAddress h₁, key_of_clientAddress h₂, IpAddress.render_inj hformed₁ hformed₂]
  exact ⟨IpAddress.canonical_eq_canonical_iff, fun r => key_of_no_clientAddress,
    IpAddress.render_ne_empty hformed₁⟩

/-- A request from a peer that was told of some addresses by proxies. -/
def requestFrom (headers : Http.Headers) (peer : Net.Endpoint) : Request where
  url := { scheme := Url.http }
  headers := headers
  remote := some peer

/-- An address that a request was forwarded for, in upper case and with more behind it, and the same
address of a peer whose proxy told nonsense. -/
theorem ip_key_eq_iff_forwarded :
    let peer : Net.Endpoint := ⟨.v4 [10, 0, 0, 9], 5555⟩
    let r₁ := requestFrom [⟨.literal "x-forwarded-for", .ofString " ::FFFF:a00:9 ,1.1.1.1"⟩] peer
    let r₂ := requestFrom [⟨.literal "x-real-ip", .ofString "unknown"⟩] peer
    (∀ e ∈ r₁.remote, e.address.WellFormed) ∧ (∀ e ∈ r₂.remote, e.address.WellFormed) ∧
      ClientAddress r₁ (.v6 [0, 0, 0, 0, 0, 0xFFFF, 0x0A00, 9]) ∧
      ClientAddress r₂ peer.address ∧ key r₁ .ip = key r₂ .ip ∧ key r₁ .ip ≠ "" := by
  intro peer r₁ r₂
  have hpeer₁ : ∀ e ∈ r₁.remote, e.address.WellFormed := by
    rintro _ ⟨⟩
    rfl
  have hpeer₂ : ∀ e ∈ r₂.remote, e.address.WellFormed := by
    rintro _ ⟨⟩
    rfl
  have h₁ : ClientAddress r₁ (.v6 [0, 0, 0, 0, 0, 0xFFFF, 0x0A00, 9]) :=
    clientAddress?_eq_some_iff.mp (by decide)
  have h₂ : ClientAddress r₂ peer.address := clientAddress?_eq_some_iff.mp (by decide)
  obtain ⟨hkeys, -, hne⟩ := ip_key_eq_iff hpeer₁ hpeer₂ h₁ h₂
  have hone : ∃ a, IpAddress.Means (.v6 [0, 0, 0, 0, 0, 0xFFFF, 0x0A00, 9]) a ∧ peer.address.Means a :=
    ⟨_, IpAddress.canonical_eq_iff.mp rfl, IpAddress.canonical_eq_iff.mp rfl⟩
  exact ⟨hpeer₁, hpeer₂, h₁, h₂, hkeys.mpr hone, hne⟩

end Gatehouse.KeyFunction
