import Cryptox.Outbound.PublicSourceLoader
import Cryptox.Outbound.CrawlerProvider

/-!
# The guards against the addresses they are for

What an address denotes is said of its octets and pieces. The guards see a text of it: the one of
the URL parser or the one of the resolver. They answer true on every text but two kinds: multicast
addresses of the newer kind, which the crawler lets pass, and mapped addresses as the URL parser
writes them, which both let pass.
-/
namespace Cryptox.Outbound

open Cryptox.Library

/-! ## What an address denotes -/

inductive Address where
  | v4 (address : Ipv4)
  | v6 (address : Ipv6)
deriving DecidableEq, Repr

/-- Who writes the text of an address. -/
inductive Form where
  | url
  | resolved
deriving DecidableEq, Repr

def Address.text (form : Form) : Address → Text
  | .v4 address => dottedText address
  | .v6 address =>
    match form with
    | .url => urlText address
    | .resolved => resolvedText address

/-- Unspecified, loopback, private, carrier-grade, link-local or multicast. -/
def SensitiveV4 (address : Ipv4) : Prop :=
  (address.first.val = 0 ∧ address.second.val = 0 ∧ address.third.val = 0 ∧ address.fourth.val = 0)
    ∨ address.first.val = 127
    ∨ address.first.val = 10
    ∨ (address.first.val = 172 ∧ 16 ≤ address.second.val ∧ address.second.val ≤ 31)
    ∨ (address.first.val = 192 ∧ address.second.val = 168)
    ∨ (address.first.val = 100 ∧ 64 ≤ address.second.val ∧ address.second.val ≤ 127)
    ∨ (address.first.val = 169 ∧ address.second.val = 254)
    ∨ (224 ≤ address.first.val ∧ address.first.val ≤ 239)

def firstPiece (address : Ipv6) : Nat := address.pieces.headD 0

def IsMulticastV6 (address : Ipv6) : Prop := 0xff00 ≤ firstPiece address

/-- Unspecified, loopback, unique-local, link-local or multicast. -/
def SensitiveV6 (address : Ipv6) : Prop :=
  address.pieces = [0, 0, 0, 0, 0, 0, 0, 0]
    ∨ address.pieces = [0, 0, 0, 0, 0, 0, 0, 1]
    ∨ (0xfc00 ≤ firstPiece address ∧ firstPiece address ≤ 0xfdff)
    ∨ (0xfe80 ≤ firstPiece address ∧ firstPiece address ≤ 0xfebf)
    ∨ IsMulticastV6 address

/-- A mapped address carries one of the older kind in its last two pieces. -/
def Maps (address : Ipv6) (high low : Nat) : Prop :=
  address.pieces = [0, 0, 0, 0, 0, 0xffff, high, low]

def Address.Mapped : Address → Prop
  | .v4 _ => False
  | .v6 address => ∃ high low, Maps address high low

def Address.MulticastV6 : Address → Prop
  | .v4 _ => False
  | .v6 address => IsMulticastV6 address

/-- The addresses no fetch may reach, directly or mapped. -/
def Address.Sensitive : Address → Prop
  | .v4 address => SensitiveV4 address
  | .v6 address =>
    SensitiveV6 address ∨ ∃ high low, Maps address high low ∧ SensitiveV4 (lowIpv4 high low)

/-- Both guards answer true, and no request of either loader, whatever the web answers, is checked
for the text. -/
structure Shielded (text : Text) : Prop where
  blocked : PublicSourceLoader.blockedAddress text = true
  isPrivate : CrawlerProvider.isPrivateAddress text = true
  loads : ∀ (web : Web) (maxRedirects : Nat) (inputUrl : Text),
    ∀ request ∈ PublicSourceLoader.load web maxRedirects inputUrl,
      ¬ PublicSourceLoader.Checks web request text
  pages : ∀ (web : Web) (maxRedirects : Nat) (sourceUrl : Text),
    ∀ request ∈ CrawlerProvider.fetchWithBounds web maxRedirects sourceUrl,
      ¬ CrawlerProvider.Checks web request text

theorem shielded_of_guards {text : Text} (hblocked : PublicSourceLoader.blockedAddress text = true)
    (hprivate : CrawlerProvider.isPrivateAddress text = true) : Shielded text where
  blocked := hblocked
  isPrivate := hprivate
  loads web maxRedirects inputUrl request hrequest hchecks := by
    have hopen := PublicSourceLoader.load_checked hrequest hchecks
    rw [hblocked] at hopen
    cases hopen
  pages web maxRedirects sourceUrl request hrequest hchecks := by
    have hopen := CrawlerProvider.fetchWithBounds_checked hrequest hchecks
    rw [hprivate] at hopen
    cases hopen

/-! ## The texts the guards leave as they are -/

/-- The letters of a text of an address. -/
def addressLetters : Text := hexLetters ++ ".:".toList

def Plain (text : Text) : Prop := ∀ c ∈ text, c ∈ addressLetters

theorem plain_urlText (address : Ipv6) : Plain (urlText address) := by
  intro c hc
  rcases urlText_letters address c hc with hletter | rfl
  · exact List.mem_append_left _ hletter
  · decide

theorem plain_dottedText (address : Ipv4) : Plain (dottedText address) := by
  intro c hc
  rcases dottedText_letters address c hc with hletter | rfl
  · exact List.mem_append_left _ hletter
  · decide

theorem plain_mapped (address : Ipv4) : Plain ("::ffff:".toList ++ dottedText address) := by
  have hlead : "::ffff:".toList ⊆ addressLetters := by decide
  intro c hc
  rcases List.mem_append.mp hc with hc | hc
  · exact hlead hc
  · exact plain_dottedText address c hc

theorem Plain.not_mem {text : Text} (h : Plain text) {c : Char} (hc : c ∉ addressLetters) :
    c ∉ text :=
  fun hmem => hc (h c hmem)

theorem Plain.toLowerCase_eq {text : Text} (h : Plain text) : toLowerCase text = text := by
  have hlower : (addressLetters.all fun c => c.toLower == c) = true := by decide
  refine (List.map_congr_left fun c hc => ?_).trans (List.map_id text)
  exact beq_iff_eq.mp (List.all_eq_true.mp hlower c (h c hc))

theorem Plain.stripBrackets_eq {text : Text} (h : Plain text) : stripBrackets text = text := by
  have hopen : text.head? ≠ some '[' :=
    fun heq => h.not_mem (by decide) (List.mem_of_mem_head? heq)
  have hclose : text.getLast? ≠ some ']' :=
    fun heq => h.not_mem (by decide) (List.mem_of_mem_getLast? heq)
  rw [stripBrackets, if_neg hopen, if_neg hclose]

theorem Plain.zone_eq {text : Text} (h : Plain text) : text.takeWhile (· ≠ '%') = text := by
  refine List.takeWhile_eq_self_iff.mpr fun c hc => decide_eq_true ?_
  rintro rfl
  exact h.not_mem (by decide) hc

/-! ## Addresses of the older kind -/

/-- The guard of the loader on the octets. -/
theorem blockedIpv4_sensitive {address : Ipv4} (h : SensitiveV4 address) :
    PublicSourceLoader.blockedIpv4 (dottedText address) = true := by
  unfold PublicSourceLoader.blockedIpv4
  rw [dottedText_parts]
  simp only [List.map_cons, List.map_nil, decimalValue_decimalText]
  split
  · rfl
  · simp only [Bool.or_eq_true, Bool.and_eq_true, beq_iff_eq, decide_eq_true_eq]
    rcases h with ⟨ha, -⟩ | ha | ha | ⟨ha, hb⟩ | ⟨ha, hb⟩ | ⟨ha, hb⟩ | ⟨ha, hb⟩ | ⟨ha, -⟩ <;>
      simp [*]

theorem ipv4Parts_dottedText (address : Ipv4) : CrawlerProvider.ipv4Parts (dottedText address)
    = some [address.first.val, address.second.val, address.third.val, address.fourth.val] := by
  have hoctet : ∀ value : Fin 256, value.val ≤ 255 := fun value => by omega
  unfold CrawlerProvider.ipv4Parts
  rw [dottedText_parts]
  simp [decimalValue_decimalText, hoctet]

/-- The guard of the crawler on the octets. -/
theorem isPrivateAddress_sensitive {text : Text} (htext : Plain text) {address : Ipv4}
    (h : SensitiveV4 address)
    (hparts : ((CrawlerProvider.ipv4Parts text).orElse fun _ => CrawlerProvider.mappedParts text)
      = some [address.first.val, address.second.val, address.third.val, address.fourth.val]) :
    CrawlerProvider.isPrivateAddress text = true := by
  unfold CrawlerProvider.isPrivateAddress
  simp only [htext.toLowerCase_eq, htext.zone_eq, hparts]
  simp only [Bool.or_eq_true, Bool.and_eq_true, beq_iff_eq, decide_eq_true_eq]
  rcases h with ⟨ha, -⟩ | ha | ha | ⟨ha, hb⟩ | ⟨ha, hb⟩ | ⟨ha, hb⟩ | ⟨ha, hb⟩ | ⟨ha, -⟩ <;>
    simp [*]

theorem shielded_v4 {address : Ipv4} (h : SensitiveV4 address) : Shielded (dottedText address) := by
  have hplain := plain_dottedText address
  refine shielded_of_guards ?_ (isPrivateAddress_sensitive hplain h ?_)
  · have hkind : isIP (dottedText address) = 4 := by rw [isIP, isIPv4_dottedText]; rfl
    unfold PublicSourceLoader.blockedAddress
    simp only [hplain.stripBrackets_eq, hkind]
    exact blockedIpv4_sensitive h
  · rw [ipv4Parts_dottedText]
    rfl

/-! ## Addresses of the newer kind -/

theorem pieces_cons (address : Ipv6) :
    address.pieces = firstPiece address :: address.pieces.tail ∧ firstPiece address < 65536 := by
  have hlength := address.length_eq
  cases hpieces : address.pieces with
  | nil =>
    rw [hpieces] at hlength
    cases hlength
  | cons first rest =>
    have hfirst : firstPiece address = first := by rw [firstPiece, hpieces, List.headD_cons]
    refine ⟨by rw [hfirst, List.tail_cons], ?_⟩
    rw [hfirst]
    exact address.small first (by rw [hpieces]; exact List.mem_cons_self)

/-- The text of an address from fc00 on, whoever writes it, begins with the digits of its first
piece. -/
theorem text_first (form : Form) (address : Ipv6) (h : 0xfc00 ≤ firstPiece address) :
    (Address.v6 address).text form = urlText address ∧ ∃ tail, urlText address
      = 'f' :: Nat.digitChar (firstPiece address / 256 % 16)
        :: Nat.digitChar (firstPiece address / 16 % 16) :: tail := by
  obtain ⟨hpieces, hsmall⟩ := pieces_cons address
  have hnonzero : firstPiece address ≠ 0 := by omega
  have hdigit : firstPiece address / 4096 = 15 := by omega
  constructor
  · cases form with
    | url => rfl
    | resolved => exact resolvedText_first hpieces hnonzero
  · obtain ⟨tail, htail⟩ := urlText_first hpieces hnonzero
    rw [hexText_four (by omega), hdigit] at htail
    exact ⟨_, htail⟩

theorem blockedAddress_v6 {text : Text} (hplain : Plain text) (hkind : isIP text = 6) :
    PublicSourceLoader.blockedAddress text = PublicSourceLoader.blockedIpv6 text := by
  unfold PublicSourceLoader.blockedAddress
  simp only [hplain.stripBrackets_eq, hkind]

theorem ipv4Parts_undotted {text : Text} (h : '.' ∉ text) :
    CrawlerProvider.ipv4Parts text = none := by
  unfold CrawlerProvider.ipv4Parts
  rw [List.splitOn_eq_singleton h]
  rfl

/-- What the URL parser writes of an address of the newer kind: it dots none. -/
structure Undotted (text : Text) : Prop where
  plain : Plain text
  dot : '.' ∉ text
  kind : isIP text = 6

theorem undotted_urlText (address : Ipv6) : Undotted (urlText address) where
  plain := plain_urlText address
  dot := by
    intro hdot
    rcases urlText_letters address '.' hdot with hletter | hcolon
    · exact absurd hletter (by decide)
    · cases hcolon
  kind := isIP_urlText address

theorem Undotted.isPrivateAddress_eq {text : Text} (h : Undotted text) :
    CrawlerProvider.isPrivateAddress text
      = (text == "::".toList || text == "::1".toList
        || startsWith text "fc".toList || startsWith text "fd".toList
        || startsWith text "fe8".toList || startsWith text "fe9".toList
        || startsWith text "fea".toList || startsWith text "feb".toList) := by
  have hmapped : CrawlerProvider.mappedParts text = none := by
    unfold CrawlerProvider.mappedParts
    split
    · exact ipv4Parts_undotted fun hmem => h.dot (List.mem_of_mem_drop hmem)
    · rfl
  unfold CrawlerProvider.isPrivateAddress
  simp only [h.plain.toLowerCase_eq, h.plain.zone_eq, ipv4Parts_undotted h.dot, hmapped, h.kind]
  rfl

/-- Without a dot there is no mapped address to read. -/
theorem Undotted.blockedAddress_eq {text : Text} (h : Undotted text) :
    PublicSourceLoader.blockedAddress text
      = (text == "::".toList || text == "::1".toList
        || PublicSourceLoader.isLinkLocalText text
        || startsWith text "fc".toList || startsWith text "fd".toList
        || startsWith text "ff".toList) := by
  have hmapped : PublicSourceLoader.mappedText text = none := by
    have hrest : '.' ∉ text.drop 7 := fun hmem => h.dot (List.mem_of_mem_drop hmem)
    unfold PublicSourceLoader.mappedText
    simp [List.splitOn_eq_singleton hrest]
  rw [blockedAddress_v6 h.plain h.kind, PublicSourceLoader.blockedIpv6]
  simp only [h.plain.toLowerCase_eq, hmapped]
  split
  · rename_i hblocked
    rw [hblocked]
  · rename_i hopen
    exact (Bool.eq_false_iff.mpr hopen).symm

theorem shielded_zeros (form : Form) {address : Ipv6}
    (h : address.pieces = [0, 0, 0, 0, 0, 0, 0, 0] ∨ address.pieces = [0, 0, 0, 0, 0, 0, 0, 1]) :
    Shielded ((Address.v6 address).text form) := by
  have hresolved : resolvedGroups address.pieces = urlGroups address.pieces := by
    rcases h with h | h <;> rw [h] <;> rfl
  have htext : (Address.v6 address).text form = urlText address := by
    cases form with
    | url => rfl
    | resolved => exact congrArg [':'].intercalate hresolved
  have hwritten : urlText address = "::".toList ∨ urlText address = "::1".toList := by
    unfold urlText
    rcases h with h | h <;> rw [h]
    · exact .inl (by decide)
    · exact .inr (by decide)
  have hundotted := undotted_urlText address
  rw [htext]
  refine shielded_of_guards ?_ ?_
  · rw [hundotted.blockedAddress_eq]
    rcases hwritten with heq | heq <;> rw [heq] <;> rfl
  · rw [hundotted.isPrivateAddress_eq]
    rcases hwritten with heq | heq <;> rw [heq] <;> rfl

/-- Unique-local and link-local addresses, by their first three digits. -/
theorem shielded_local (form : Form) {address : Ipv6}
    (h : (0xfc00 ≤ firstPiece address ∧ firstPiece address ≤ 0xfdff)
      ∨ (0xfe80 ≤ firstPiece address ∧ firstPiece address ≤ 0xfebf)) :
    Shielded ((Address.v6 address).text form) := by
  obtain ⟨htext, tail, htail⟩ := text_first form address (by omega)
  have hdigits : firstPiece address / 256 % 16 = 12 ∨ firstPiece address / 256 % 16 = 13
      ∨ firstPiece address / 256 % 16 = 14 ∧ (firstPiece address / 16 % 16 = 8
        ∨ firstPiece address / 16 % 16 = 9 ∨ firstPiece address / 16 % 16 = 10
        ∨ firstPiece address / 16 % 16 = 11) := by
    omega
  have hundotted := undotted_urlText address
  rw [htext]
  refine shielded_of_guards ?_ ?_
  · rw [hundotted.blockedAddress_eq, htail]
    rcases hdigits with hd | hd | ⟨hd, hd' | hd' | hd' | hd'⟩ <;>
      simp [startsWith, PublicSourceLoader.isLinkLocalText, Nat.digitChar, *]
  · rw [hundotted.isPrivateAddress_eq, htail]
    rcases hdigits with hd | hd | ⟨hd, hd' | hd' | hd' | hd'⟩ <;>
      simp [startsWith, Nat.digitChar, *]

/-- The crawler lets every multicast address of the newer kind pass. -/
theorem isPrivateAddress_multicast (form : Form) {address : Ipv6} (h : IsMulticastV6 address) :
    CrawlerProvider.isPrivateAddress ((Address.v6 address).text form) = false := by
  unfold IsMulticastV6 at h
  obtain ⟨htext, tail, htail⟩ := text_first form address (by omega)
  have hsmall := (pieces_cons address).2
  have hdigit : firstPiece address / 256 % 16 = 15 := by omega
  rw [htext, (undotted_urlText address).isPrivateAddress_eq, htail, hdigit]
  rfl

/-! ## Mapped addresses -/

/-- Neither guard knows a mapped address that is not dotted. -/
theorem guards_mapped_url {address : Ipv6} {high low : Nat} (h : Maps address high low) :
    PublicSourceLoader.blockedAddress (urlText address) = false
      ∧ CrawlerProvider.isPrivateAddress (urlText address) = false := by
  have hundotted := undotted_urlText address
  rw [hundotted.blockedAddress_eq, hundotted.isPrivateAddress_eq, urlText_mapped h]
  exact ⟨rfl, rfl⟩

/-- The text of a mapped address is split like the dotted one behind it, but for the first part. -/
theorem mapped_parts (address : Ipv4) :
    ("::ffff:".toList ++ dottedText address).splitOn '.'
      = ["::ffff:".toList ++ decimalText address.first, decimalText address.second,
        decimalText address.third, decimalText address.fourth] := by
  have hjoin : "::ffff:".toList ++ dottedText address
      = ['.'].intercalate ["::ffff:".toList ++ decimalText address.first,
        decimalText address.second, decimalText address.third, decimalText address.fourth] := by
    simp [dottedText, List.intercalate_cons_cons]
  have hdot : ∀ value : Fin 256, '.' ∉ decimalText value := fun value =>
    not_mem_of_digits (decimalText_octet value).digits rfl
  rw [hjoin]
  refine List.splitOn_intercalate '.' ?_ (List.cons_ne_nil _ _)
  simp [hdot]

theorem shielded_mapped {address : Ipv6} {high low : Nat} (hmaps : Maps address high low)
    (h : SensitiveV4 (lowIpv4 high low)) : Shielded (resolvedText address) := by
  have htext := resolvedText_mapped hmaps
  have hkind : isIP (resolvedText address) = 6 := isIP_resolvedText address
  have hplain : Plain (resolvedText address) := by
    rw [htext]
    exact plain_mapped _
  refine shielded_of_guards ?_ (isPrivateAddress_sensitive hplain h ?_)
  · have hmapped : PublicSourceLoader.mappedText (resolvedText address)
        = some (dottedText (lowIpv4 high low)) := by
      unfold PublicSourceLoader.mappedText
      rw [htext]
      simp [startsWith, dottedText_parts, decimalValue_decimalText]
    rw [blockedAddress_v6 hplain hkind, PublicSourceLoader.blockedIpv6]
    simp only [hplain.toLowerCase_eq, hmapped, blockedIpv4_sensitive h, ite_self]
  · have hfirst : decimalValue? ("::ffff:".toList ++ decimalText (lowIpv4 high low).first) = none :=
      rfl
    have hnone : CrawlerProvider.ipv4Parts (resolvedText address) = none := by
      unfold CrawlerProvider.ipv4Parts
      rw [htext, mapped_parts, List.map_cons, hfirst]
      rfl
    have hmapped : CrawlerProvider.mappedParts (resolvedText address)
        = CrawlerProvider.ipv4Parts (dottedText (lowIpv4 high low)) := by
      unfold CrawlerProvider.mappedParts
      rw [htext]
      rfl
    rw [hnone, hmapped, ipv4Parts_dottedText]
    rfl

/-- Both guards stop what is sensitive, in every text but two kinds: a multicast address of the
newer kind, and a mapped address as the URL parser writes it. -/
theorem sensitive_shielded_iff {address : Address} (h : address.Sensitive) (form : Form) :
    Shielded (address.text form)
      ↔ ¬ address.MulticastV6 ∧ (address.Mapped → form = .resolved) := by
  cases address with
  | v4 address => exact ⟨fun _ => ⟨id, fun hmapped => hmapped.elim⟩, fun _ => shielded_v4 h⟩
  | v6 address =>
    constructor
    · intro hshielded
      constructor
      · intro hmulticast
        have hopen := isPrivateAddress_multicast form hmulticast
        rw [hshielded.isPrivate] at hopen
        cases hopen
      · rintro ⟨high, low, hmaps⟩
        cases form with
        | resolved => rfl
        | url => exact absurd (hshielded.blocked.symm.trans (guards_mapped_url hmaps).1) nofun
    · rintro ⟨hunicast, hform⟩
      rcases h with (hzeros | hzeros | hlocal | hlocal | hmulticast) | ⟨high, low, hmaps, hlow⟩
      · exact shielded_zeros form (.inl hzeros)
      · exact shielded_zeros form (.inr hzeros)
      · exact shielded_local form (.inl hlocal)
      · exact shielded_local form (.inr hlocal)
      · exact absurd hmulticast hunicast
      · rw [hform ⟨high, low, hmaps⟩]
        exact shielded_mapped hmaps hlow

/-- The loopback address of the older kind, mapped. -/
def mappedLoopback : Ipv6 where
  pieces := [0, 0, 0, 0, 0, 0xffff, 0x7f00, 1]
  length_eq := rfl
  small := by decide

theorem mappedLoopback_sensitive : (Address.v6 mappedLoopback).Sensitive :=
  .inr ⟨0x7f00, 1, rfl, .inr (.inl rfl)⟩

/-- The multicast address of all nodes. -/
def allNodes : Ipv6 where
  pieces := [0xff02, 0, 0, 0, 0, 0, 0, 1]
  length_eq := rfl
  small := by decide

theorem allNodes_multicast : (Address.v6 allNodes).MulticastV6 := by
  show 0xff00 ≤ firstPiece allNodes
  decide

theorem allNodes_sensitive : (Address.v6 allNodes).Sensitive :=
  .inl (.inr (.inr (.inr (.inr allNodes_multicast))))

/-- As it is resolved the mapped address is stopped by both guards, as the URL parser writes it by
neither; a multicast address of the newer kind passes in both texts. -/
theorem sensitive_shielded_resolved :
    (Address.v6 mappedLoopback).Sensitive
      ∧ Shielded ("::ffff:127.0.0.1".toList)
      ∧ ¬ Shielded ((Address.v6 mappedLoopback).text .url)
      ∧ ¬ Shielded ((Address.v6 allNodes).text .resolved) := by
  have htext : (Address.v6 mappedLoopback).text .resolved = "::ffff:127.0.0.1".toList := by
    decide
  have hunicast : ¬ (Address.v6 mappedLoopback).MulticastV6 := by
    show ¬ 0xff00 ≤ firstPiece mappedLoopback
    decide
  refine ⟨mappedLoopback_sensitive, ?_, fun h => ?_, fun h => ?_⟩
  · rw [← htext]
    exact (sensitive_shielded_iff mappedLoopback_sensitive .resolved).mpr
      ⟨hunicast, fun _ => rfl⟩
  · cases ((sensitive_shielded_iff mappedLoopback_sensitive .url).mp h).2 ⟨0x7f00, 1, rfl⟩
  · exact ((sensitive_shielded_iff allNodes_sensitive .resolved).mp h).1 allNodes_multicast

def mappedUrl : Url where
  protocol := "http:".toList
  username := []
  password := []
  hostname := "[::ffff:7f00:1]".toList
  href := "http://[::ffff:7f00:1]/".toList

/-- The web of one server that answers every request. -/
def oneServer : Web where
  parse _ := some mappedUrl
  join _ _ := none
  resolve _ hostname := .ok [hostname]
  respond _ _ := some ⟨200, none⟩

/-- The URL parser writes the mapped loopback address as `::ffff:7f00:1`; neither guard stops it,
and both loaders send their request. -/
theorem mapped_loopback_reached :
    (Address.v6 mappedLoopback).Sensitive
      ∧ (Address.v6 mappedLoopback).text .url = "::ffff:7f00:1".toList
      ∧ PublicSourceLoader.blockedAddress "::ffff:7f00:1".toList = false
      ∧ CrawlerProvider.isPrivateAddress "::ffff:7f00:1".toList = false
      ∧ (∃ request ∈ PublicSourceLoader.load oneServer 3 "http://[::ffff:127.0.0.1]/".toList,
        PublicSourceLoader.Checks oneServer request "::ffff:7f00:1".toList)
      ∧ (∃ request ∈ CrawlerProvider.fetchWithBounds oneServer 3 "http://[::ffff:127.0.0.1]/".toList,
        CrawlerProvider.Checks oneServer request "::ffff:7f00:1".toList)
      ∧ ¬ Shielded ((Address.v6 mappedLoopback).text .url) := by
  have htext : (Address.v6 mappedLoopback).text .url = "::ffff:7f00:1".toList := by decide
  have hopen : PublicSourceLoader.blockedAddress "::ffff:7f00:1".toList = false := by
    decide
  refine ⟨mappedLoopback_sensitive, htext, hopen, by decide, ?_, ?_, ?_⟩
  · refine ⟨⟨0, mappedUrl⟩, by decide, ?_⟩
    rw [PublicSourceLoader.Checks, if_pos (by decide)]
    decide
  · exact ⟨⟨0, mappedUrl⟩, by decide, .inl (by decide)⟩
  · rw [htext]
    intro hshielded
    rw [hshielded.blocked] at hopen
    cases hopen

end Cryptox.Outbound
