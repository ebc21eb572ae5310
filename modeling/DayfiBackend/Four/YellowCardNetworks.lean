import DayfiBackend.Four.BankHints

/-!
# The payout network of a bank

A bank is known by a Flutterwave code and a name, a payout network by an id of its own. The network
with the code is taken, else one whose name is linked to that of the bank: by equal names if there
is one, else the first of the list. Any common token links two names, so that the word "bank" links
almost all of them (`generic_word_routes`). `routes_right_iff` says for which banks and networks the
choice is right.
-/

namespace DayfiBackend.Four.YellowCardNetworks

open DayfiBackend.Four.BankHints (NgBank normalizeBankLabel bankAliases overlaps)
open DayfiBackend.Infra.BulkCsv (Text trimText Clean)
open DayfiBackend.Four.SendPhrases (trimText_of_clean)
open DayfiBackend.Found.Keys

/-! ### Names -/

/-- Source: `yellowCardNetworkResolver.ts` `bankTokens`. -/
def bankTokens (raw : Text) : List Text :=
  let normalized := normalizeBankLabel raw
  if normalized = [] then []
  else
    normalized ::
      (bankAliases.filter fun group =>
          group.any fun known => decide (known <:+: normalized)).flatten ++
        (normalized.splitOn ' ').filter fun word => 3 ≤ word.length

/-- Source: `yellowCardNetworkResolver.ts` `namesMatch`. -/
def namesMatch (a b : Text) : Bool :=
  (bankTokens a).any fun token =>
    decide (token ∈ bankTokens b) || (bankTokens b).any fun other => overlaps other token

/-! ### The choice -/

/-- Source: `yellowCardNetworkResolver.ts` `YellowCardNetworkRow`, the active ones. -/
structure YellowCardNetworkRow where
  id : Text
  code : Option Text
  name : Text
  country : Option Text
  channelIds : Option (List Text)
  deriving DecidableEq

/-- Where a payout goes: a country in upper case, and a channel, empty if there is none. -/
structure Payout where
  country : Text
  channelId : Text

/-- A network pays out in the country, or in all. -/
def inCountry (payout : Payout) (n : YellowCardNetworkRow) : Bool :=
  decide (n.country = none ∨ n.country = some [] ∨ n.country = some payout.country)

/-- A network pays out on the channel. -/
def onChannel (payout : Payout) (n : YellowCardNetworkRow) : Bool :=
  n.channelIds.any fun ids => payout.channelId ∈ ids

/-- The networks of a payout: those of the country, and among them those of the channel if it has
any. -/
def candidates (payout : Payout) (networks : List YellowCardNetworkRow) :
    List YellowCardNetworkRow :=
  let inCountry := networks.filter (inCountry payout)
  if payout.channelId = [] then inCountry
  else
    let forChannel := inCountry.filter (onChannel payout)
    if forChannel = [] then inCountry else forChannel

/-- The candidates whose name is linked to that of the bank. -/
def linked (bankName : Text) (payout : Payout) (networks : List YellowCardNetworkRow) :
    List YellowCardNetworkRow :=
  (candidates payout networks).filter fun n => namesMatch bankName n.name

/-- Source: `yellowCardNetworkResolver.ts` `matchYellowCardNetwork`. -/
def matchYellowCardNetwork (bankName flutterwaveCode : Text) (payout : Payout)
    (networks : List YellowCardNetworkRow) : Option YellowCardNetworkRow :=
  let fwCode := trimText flutterwaveCode
  let byCode :=
    if fwCode = [] then none
    else (candidates payout networks).find? fun n => n.code = some fwCode
  match byCode with
  | some network => some network
  | none =>
      match linked bankName payout networks with
      | [] => none
      | [network] => some network
      | first :: others =>
          let exact := (first :: others).find? fun n =>
            normalizeBankLabel n.name = normalizeBankLabel bankName
          some (exact.getD first)

/-! ### The id of a network -/

def isHex (c : Char) : Bool :=
  c.isDigit || ('a' ≤ c && c ≤ 'f') || ('A' ≤ c && c ≤ 'F')

/-- Source: `yellowCardNetworkResolver.ts` `UUID_RE`. -/
def isUuid (text : Text) : Bool :=
  match text.splitOn '-' with
  | [a, b, c, d, e] =>
      a.length == 8 && b.length == 4 && c.length == 4 && d.length == 4 && e.length == 12 &&
        (c.head?.any fun sign => '1' ≤ sign && sign ≤ '5') &&
        (d.head?.any fun sign => sign ∈ ['8', '9', 'a', 'b', 'A', 'B']) &&
        (a ++ b ++ c ++ d ++ e).all isHex
  | _ => false

/-- Source: `yellowCardNetworkResolver.ts` `FW_BANK_CODE_RE`. -/
def isBankCode (text : Text) : Bool :=
  decide (3 ≤ text.length) && decide (text.length ≤ 6) && text.all Char.isDigit

/-- The name of the bank that a request is about: the one it gives, else that of the first bank with
the code. -/
def requestedName (networkId : Text) (bankName : Option Text) (banks : List NgBank) : Text :=
  let fwBank := banks.find? fun b => b.code = trimText networkId
  let fwName := (fwBank.map (·.name)).getD []
  let named := trimText (bankName.getD fwName)
  if named = [] then fwName else named

/-- Source: `yellowCardNetworkResolver.ts` `resolveYellowCardNetworkId`. -/
def resolveYellowCardNetworkId (networkId : Text) (payout : Payout) (bankName : Option Text)
    (banks : List NgBank) (networks : List YellowCardNetworkRow) : Except Text Text :=
  let code := trimText networkId
  if code = [] then .error "Bank network is required".toList
  else if isUuid code then .ok code
  else if !isBankCode code then .ok code
  else
    let fwBank := banks.find? fun b => b.code = code
    let named := trimText (bankName.getD ((fwBank.map (·.name)).getD []))
    if named = [] ∧ fwBank = none then
      .error "Unknown bank code. Select the bank again from the list and retry.".toList
    else if networks = [] then
      .error "Unable to load payout networks. Try again in a moment.".toList
    else
      match matchYellowCardNetwork (requestedName networkId bankName banks) code payout
        networks with
      | some network => .ok network.id
      | none =>
          .error ("Bank \"".toList ++ (if named = [] then code else named) ++
            ("\" is not supported on this payout channel. Pick another bank or contact " ++
              "support.").toList)

/-! ### The same bank -/

/-- A bank of Flutterwave. -/
structure FlutterwaveBank where
  code : Text
  name : Text
  isCode : isBankCode code = true

/-- The words of a name that are not common to banks. -/
def ownWords (generic : List Text) (name : Text) : List Text :=
  ((normalizeBankLabel name).splitOn ' ').filter fun word => decide (word ≠ [] ∧ word ∉ generic)

/-- Two names of one bank: equal as labels, of one group of aliases, or with the same words of their
own. -/
def SameBank (generic : List Text) (a b : Text) : Prop :=
  normalizeBankLabel a = normalizeBankLabel b ∨
    (∃ group ∈ bankAliases, (∃ known ∈ group, known <:+: normalizeBankLabel a) ∧
      ∃ known ∈ group, known <:+: normalizeBankLabel b) ∨
    (ownWords generic a ≠ [] ∧ (∀ word ∈ ownWords generic a, word ∈ ownWords generic b) ∧
      ∀ word ∈ ownWords generic b, word ∈ ownWords generic a)

instance (generic : List Text) (a b : Text) : Decidable (SameBank generic a b) :=
  inferInstanceAs (Decidable (_ ∨ _ ∨ _))

/-- A network denotes a bank: it has the code of the bank or its name. -/
def Denotes (generic : List Text) (bank : FlutterwaveBank) (network : YellowCardNetworkRow) :
    Prop :=
  network.code = some bank.code ∨ SameBank generic bank.name network.name

instance (generic : List Text) (bank : FlutterwaveBank) (network : YellowCardNetworkRow) :
    Decidable (Denotes generic bank network) :=
  inferInstanceAs (Decidable (_ ∨ _))

/-- No two of the networks denote the bank. -/
def AtMostOne (generic : List Text) (bank : FlutterwaveBank)
    (networks : List YellowCardNetworkRow) : Prop :=
  ∀ a ∈ networks, ∀ b ∈ networks, Denotes generic bank a → Denotes generic bank b → a = b

/-- The bank is routed right. -/
structure RoutesRight (generic : List Text) (bank : FlutterwaveBank) (payout : Payout)
    (networks : List YellowCardNetworkRow) : Prop where
  sound : ∀ network, matchYellowCardNetwork bank.name bank.code payout networks = some network →
    Denotes generic bank network
  order : AtMostOne generic bank networks → ∀ others, networks.Perm others →
    matchYellowCardNetwork bank.name bank.code payout others =
      matchYellowCardNetwork bank.name bank.code payout networks
  fails : (∀ network ∈ networks, ¬ Denotes generic bank network) →
    ∀ networkId bankName banks, trimText networkId = bank.code →
      requestedName networkId bankName banks = bank.name →
      ∃ error, resolveYellowCardNetworkId networkId payout bankName banks networks = .error error

/-! ### Candidates in another order -/

section lists

variable {α : Type} {l l' : List α}

/-- In any order the same element is found, where no two are sought. -/
theorem find?_perm (sought : α → Bool) (h : l.Perm l')
    (hone : ∀ a ∈ l, ∀ b ∈ l, sought a = true → sought b = true → a = b) :
    l'.find? sought = l.find? sought := by
  cases hfound : l.find? sought with
  | none =>
      rw [List.find?_eq_none] at hfound ⊢
      exact fun a ha => hfound a (h.mem_iff.mpr ha)
  | some a =>
      cases hother : l'.find? sought with
      | none =>
          rw [List.find?_eq_none] at hother
          exact absurd (List.find?_some hfound)
            (hother a (h.mem_iff.mp (List.mem_of_find?_eq_some hfound)))
      | some b =>
          have hb : b ∈ l := h.mem_iff.mpr (List.mem_of_find?_eq_some hother)
          rw [hone b hb a (List.mem_of_find?_eq_some hfound) (List.find?_some hother)
            (List.find?_some hfound)]

/-- In any order the same element is first, where no two differ. -/
theorem head?_perm (h : l.Perm l') (hall : ∀ a ∈ l, some a = l.head?) : l'.head? = l.head? := by
  cases hfirst : l' with
  | nil =>
      rw [hfirst] at h
      rw [h.eq_nil]
  | cons a others =>
      apply hall a
      rw [h.mem_iff, hfirst]
      exact List.mem_cons_self

end lists

section choice

variable {generic : List Text} {bank : FlutterwaveBank} {payout : Payout}
  {networks others : List YellowCardNetworkRow} {network : YellowCardNetworkRow}

/-- A network is among the candidates of a list. -/
def eligible (payout : Payout) (networks : List YellowCardNetworkRow) (n : YellowCardNetworkRow) :
    Bool :=
  inCountry payout n &&
    (payout.channelId = [] || !(networks.any fun n => inCountry payout n && onChannel payout n) ||
      onChannel payout n)

theorem candidates_eq (payout : Payout) (networks : List YellowCardNetworkRow) :
    candidates payout networks = networks.filter (eligible payout networks) := by
  unfold candidates eligible
  by_cases hchannel : payout.channelId = []
  · simp [hchannel]
  · have hany : (networks.any fun n => inCountry payout n && onChannel payout n) =
        !decide ((networks.filter (inCountry payout)).filter (onChannel payout) = []) := by
      rw [List.filter_filter, Bool.eq_iff_iff]
      simp [List.filter_eq_nil_iff, and_comm]
    rw [hany]
    simp only [hchannel, if_false]
    split_ifs with hnone
    · simp [hnone]
    · rw [decide_eq_false hnone, List.filter_filter]
      exact List.filter_congr fun n _ => by simp [Bool.and_comm]

theorem eligible_perm (payout : Payout) (h : networks.Perm others) :
    eligible payout others = eligible payout networks := by
  funext n
  simp only [eligible, h.any_eq]

theorem candidates_perm (payout : Payout) (h : networks.Perm others) :
    (candidates payout networks).Perm (candidates payout others) := by
  rw [candidates_eq, candidates_eq, eligible_perm payout h]
  exact h.filter _

theorem linked_perm (bankName : Text) (payout : Payout) (h : networks.Perm others) :
    (linked bankName payout networks).Perm (linked bankName payout others) :=
  (candidates_perm payout h).filter _

theorem mem_of_candidates (h : network ∈ candidates payout networks) : network ∈ networks := by
  rw [candidates_eq] at h
  exact List.mem_of_mem_filter h

theorem mem_candidates_of_linked {bankName : Text}
    (h : network ∈ linked bankName payout networks) :
    network ∈ candidates payout networks :=
  List.mem_of_mem_filter h

/-- Any candidate that is linked is the first in some order. -/
theorem linked_head? {bankName : Text} (h : network ∈ linked bankName payout networks) :
    ∃ others, networks.Perm others ∧ (linked bankName payout others).head? = some network := by
  have hcandidate := mem_candidates_of_linked h
  have hperm := List.perm_cons_erase (mem_of_candidates hcandidate)
  refine ⟨_, hperm, ?_⟩
  rw [candidates_eq] at hcandidate
  rw [linked, candidates_eq, eligible_perm payout hperm,
    List.filter_cons_of_pos (List.of_mem_filter hcandidate),
    List.filter_cons_of_pos (List.of_mem_filter h)]
  rfl

/-! ### Which networks are chosen -/

/-- The code of a bank is digits. -/
theorem isDigit_of_code (bank : FlutterwaveBank) : ∀ c ∈ bank.code, c.isDigit = true := by
  have hcode := bank.isCode
  simp only [isBankCode, Bool.and_eq_true, List.all_eq_true] at hcode
  exact hcode.2

theorem code_ne_nil (bank : FlutterwaveBank) : bank.code ≠ [] := by
  intro h
  have hcode := bank.isCode
  simp [isBankCode, h] at hcode

theorem trimText_code (bank : FlutterwaveBank) : trimText bank.code = bank.code := by
  have hspace : ∀ c ∈ bank.code, isSpace c = false :=
    fun c hc => isSpace_of_isDigit (isDigit_of_code bank c hc)
  have hclean : Clean bank.code :=
    ⟨fun c hc => hspace c (List.mem_of_mem_head? hc),
      fun c hc => hspace c (List.mem_of_getLast? hc)⟩
  exact trimText_of_clean hclean (code_ne_nil bank)

/-- The choice, one way after the other. -/
theorem match_eq (bank : FlutterwaveBank) (payout : Payout)
    (networks : List YellowCardNetworkRow) :
    matchYellowCardNetwork bank.name bank.code payout networks =
      ((candidates payout networks).find? fun n => n.code = some bank.code).or
        (((linked bank.name payout networks).find? fun n =>
            normalizeBankLabel n.name = normalizeBankLabel bank.name).or
          (linked bank.name payout networks).head?) := by
  simp only [matchYellowCardNetwork, trimText_code, code_ne_nil, if_false]
  cases (candidates payout networks).find? fun n => n.code = some bank.code with
  | some network => rfl
  | none =>
      rw [Option.none_or]
      match linked bank.name payout networks with
      | [] => rfl
      | [network] =>
          simp only [List.find?_singleton, List.head?_cons]
          split_ifs <;> rfl
      | first :: second :: others =>
          simp only [List.head?_cons]
          cases (first :: second :: others).find? _ <;> rfl

/-- What is chosen is listed. -/
theorem mem_of_match
    (h : matchYellowCardNetwork bank.name bank.code payout networks = some network) :
    network ∈ networks := by
  rw [match_eq, Option.or_eq_some_iff, Option.or_eq_some_iff] at h
  rcases h with hcode | ⟨-, hname | ⟨-, hfirst⟩⟩
  · exact mem_of_candidates (List.mem_of_find?_eq_some hcode)
  · exact mem_of_candidates (mem_candidates_of_linked (List.mem_of_find?_eq_some hname))
  · exact mem_of_candidates (mem_candidates_of_linked (List.mem_of_mem_head? hfirst))

/-- A code is not taken for the id of a network. -/
theorem isUuid_code (bank : FlutterwaveBank) : isUuid bank.code = false := by
  have hsplit : bank.code.splitOn '-' = [bank.code] := by
    rw [List.splitOn_eq_splitOnP]
    apply List.splitOnP_eq_singleton
    intro c hc
    rw [beq_eq_false_iff_ne]
    rintro rfl
    exact absurd (isDigit_of_code bank _ hc) (by decide)
  simp [isUuid, hsplit]

/-- No id is resolved, where none is chosen. -/
theorem resolve_of_none {networkId : Text} {bankName : Option Text} {banks : List NgBank}
    (hid : trimText networkId = bank.code)
    (hname : requestedName networkId bankName banks = bank.name)
    (h : matchYellowCardNetwork bank.name bank.code payout networks = none) :
    ∃ error,
      resolveYellowCardNetworkId networkId payout bankName banks networks = .error error := by
  simp only [resolveYellowCardNetworkId, hid, hname, h, code_ne_nil, isUuid_code, bank.isCode,
    if_false, Bool.not_true, Bool.false_eq_true]
  split_ifs
  all_goals exact ⟨_, rfl⟩

/-- The networks decide the choice: one has the code, or one is linked by an equal name, or none is
linked, or the first that is linked denotes the bank, and is the only one to be linked where no two
denote it. -/
def Decided (generic : List Text) (bank : FlutterwaveBank) (payout : Payout)
    (networks : List YellowCardNetworkRow) : Prop :=
  (∃ n ∈ candidates payout networks, n.code = some bank.code) ∨
    (∃ n ∈ linked bank.name payout networks,
      normalizeBankLabel n.name = normalizeBankLabel bank.name) ∨
    linked bank.name payout networks = [] ∨
    (∃ n ∈ (linked bank.name payout networks).head?, Denotes generic bank n) ∧
      (AtMostOne generic bank networks →
        ∀ n ∈ linked bank.name payout networks, some n = (linked bank.name payout networks).head?)

/-- What is chosen by its code or by an equal name denotes the bank, what is chosen as the first
where that does. -/
theorem denotes_of_match (hdecided : Decided generic bank payout networks)
    (h : matchYellowCardNetwork bank.name bank.code payout networks = some network) :
    Denotes generic bank network := by
  rw [match_eq, Option.or_eq_some_iff, Option.or_eq_some_iff] at h
  rcases h with hcode | ⟨hcode, hname | ⟨hname, hfirst⟩⟩
  · exact .inl (by simpa using List.find?_some hcode)
  · exact .inr (.inl (by simpa [eq_comm] using List.find?_some hname))
  · rw [List.find?_eq_none] at hcode hname
    rcases hdecided with ⟨n, hn, heq⟩ | ⟨n, hn, heq⟩ | hnone | ⟨⟨n, hn, hdenotes⟩, -⟩
    · exact absurd heq (by simpa using hcode n hn)
    · exact absurd heq (by simpa using hname n hn)
    · simp [hnone] at hfirst
    · rw [Option.mem_def, hfirst] at hn
      cases hn
      exact hdenotes

/-- The choice is the same in every order, where at most one network denotes the bank. -/
theorem match_perm (hdecided : Decided generic bank payout networks)
    (hone : AtMostOne generic bank networks) (hperm : networks.Perm others) :
    matchYellowCardNetwork bank.name bank.code payout others =
      matchYellowCardNetwork bank.name bank.code payout networks := by
  have hcandidates := candidates_perm payout hperm
  have hlinked := linked_perm bank.name payout hperm
  have hcode : ((candidates payout others).find? fun n => n.code = some bank.code) =
      (candidates payout networks).find? fun n => n.code = some bank.code :=
    find?_perm _ hcandidates fun a ha b hb hcodea hcodeb =>
      hone a (mem_of_candidates ha) b (mem_of_candidates hb) (.inl (by simpa using hcodea))
        (.inl (by simpa using hcodeb))
  have hname : ((linked bank.name payout others).find? fun n =>
        normalizeBankLabel n.name = normalizeBankLabel bank.name) =
      (linked bank.name payout networks).find? fun n =>
        normalizeBankLabel n.name = normalizeBankLabel bank.name :=
    find?_perm _ hlinked fun a ha b hb hnamea hnameb =>
      hone a (mem_of_candidates (mem_candidates_of_linked ha)) b
        (mem_of_candidates (mem_candidates_of_linked hb))
        (.inr (.inl (by simpa [eq_comm] using hnamea)))
        (.inr (.inl (by simpa [eq_comm] using hnameb)))
  rw [match_eq, match_eq, hcode, hname]
  rcases hdecided with ⟨n, hn, heq⟩ | ⟨n, hn, heq⟩ | hnone | ⟨-, hall⟩
  · have hsome : ((candidates payout networks).find? fun n => n.code = some bank.code).isSome :=
      List.find?_isSome.mpr ⟨n, hn, by simpa using heq⟩
    rw [Option.or_of_isSome hsome, Option.or_of_isSome hsome]
  · have hsome : ((linked bank.name payout networks).find? fun n =>
        normalizeBankLabel n.name = normalizeBankLabel bank.name).isSome :=
      List.find?_isSome.mpr ⟨n, hn, by simpa using heq⟩
    rw [Option.or_of_isSome hsome, Option.or_of_isSome hsome]
  · rw [hnone] at hlinked
    rw [hnone, hlinked.nil_eq.symm]
  · rw [head?_perm hlinked (hall hone)]

end choice

/-- "Zenith Bank" goes to Access Bank. -/
theorem generic_word_routes :
    ¬ RoutesRight (["bank", "plc", "microfinance"].map String.toList)
      ⟨"057".toList, "Zenith Bank".toList, by decide⟩ ⟨"NG".toList, []⟩
      [⟨"a".toList, some "044".toList, "Access Bank".toList, some "NG".toList, none⟩] := by
  intro h
  have hchosen : matchYellowCardNetwork "Zenith Bank".toList "057".toList ⟨"NG".toList, []⟩
      [⟨"a".toList, some "044".toList, "Access Bank".toList, some "NG".toList, none⟩] =
      some ⟨"a".toList, some "044".toList, "Access Bank".toList, some "NG".toList, none⟩ := by
    decide +kernel
  exact absurd (h.sound _ hchosen) (by decide +kernel)

/-- A bank is routed right exactly where the networks decide the choice, whichever words are
generic. -/
theorem routes_right_iff (generic : List Text) (bank : FlutterwaveBank) (payout : Payout)
    (networks : List YellowCardNetworkRow) :
    RoutesRight generic bank payout networks ↔ Decided generic bank payout networks := by
  constructor
  · intro h
    by_contra hundecided
    simp only [Decided, not_or] at hundecided
    obtain ⟨hcode, hname, hlinked, hfirst⟩ := hundecided
    -- nothing but the order chooses
    have hhead : ∀ others, networks.Perm others →
        matchYellowCardNetwork bank.name bank.code payout others =
          (linked bank.name payout others).head? := by
      intro others hperm
      have hnocode :
          ((candidates payout others).find? fun n => n.code = some bank.code) = none := by
        rw [List.find?_eq_none]
        intro n hn heq
        exact hcode ⟨n, (candidates_perm payout hperm).mem_iff.mpr hn, by simpa using heq⟩
      have hnoname : ((linked bank.name payout others).find? fun n =>
          normalizeBankLabel n.name = normalizeBankLabel bank.name) = none := by
        rw [List.find?_eq_none]
        intro n hn heq
        exact hname ⟨n, (linked_perm bank.name payout hperm).mem_iff.mpr hn, by simpa using heq⟩
      rw [match_eq, hnocode, hnoname, Option.none_or, Option.none_or]
    obtain ⟨first, hmem⟩ := Option.isSome_iff_exists.mp (List.isSome_head?.mpr hlinked)
    apply hfirst
    constructor
    · exact ⟨first, hmem, h.sound first (by rw [hhead networks (List.Perm.refl _), hmem])⟩
    · intro hone n hn
      obtain ⟨others, hperm, hn⟩ := linked_head? hn
      rw [← hn, ← hhead others hperm, h.order hone others hperm, hhead networks (List.Perm.refl _)]
  · intro h
    refine ⟨fun network => denotes_of_match h, fun hone others => match_perm h hone, ?_⟩
    intro hnone networkId bankName banks hid hname
    apply resolve_of_none hid hname
    rw [Option.eq_none_iff_forall_not_mem]
    intro network hnetwork
    exact hnone network (mem_of_match hnetwork) (denotes_of_match h hnetwork)

end DayfiBackend.Four.YellowCardNetworks
