import Mathlib.Data.List.TakeWhile
import Pertisk.Join

namespace Pertisk.PeerUrl

inductive Scheme
  | https
  | http
  deriving DecidableEq

def Scheme.text : Scheme → List Char
  | https => "https".toList
  | http => "http".toList

/-- A character of an address or a name. -/
def hostChar (c : Char) : Bool := !isWhiteSpace c && c != ':' && c != '/' && c != '[' && c != ']'

/-- An IPv4 address or a name, or an IPv6 address. -/
inductive Host
  | name (text : List Char) (h : text ≠ [] ∧ ∀ c ∈ text, hostChar c = true)
  | ipv6 (text : List Char) (h : ':' ∈ text ∧ ∀ c ∈ text, c = ':' ∨ hostChar c = true)

/-- The bare address or name. -/
def Host.text : Host → List Char
  | name text _ => text
  | ipv6 text _ => text

/-- How a URL has it. -/
def Host.written : Host → List Char
  | name text _ => text
  | ipv6 text _ => '[' :: text ++ [']']

/-- A number that a URL names as its port. -/
def IsPort (port : List Char) : Prop := port ≠ [] ∧ ∀ c ∈ port, c.isDigit = true

structure Template where
  scheme : Scheme
  host : Host
  port : Option (List Char)
  number : ∀ p ∈ port, IsPort p
  slashes : ℕ

def portText : Option (List Char) → List Char
  | some port => ':' :: port
  | none => []

/-- The URL without the slashes at its end. -/
def Template.body (t : Template) : List Char :=
  t.scheme.text ++ "://".toList ++ (t.host.written ++ portText t.port)

def Template.url (t : Template) : List Char := t.body ++ List.replicate t.slashes '/'

/-- The URL has the host, and the template's scheme and port. -/
def Healed (t : Template) (host : Host) (u : List Char) : Prop :=
  peerUrlHost u = some host.text ∧ ∃ port, t.port = some port ∧ IsPort port ∧
    u = t.scheme.text ++ "://".toList ++ (host.written ++ ':' :: port)

/-- An IPv6 host, and no port behind it. -/
def Template.Bare (t : Template) : Prop := t.port = none ∧ ∃ text h, t.host = .ipv6 text h

variable {t : Template} {host : Host} {c : Char} {s : List Char}

theorem hostChar_ne (h : hostChar c = true) :
    isWhiteSpace c = false ∧ c ≠ ':' ∧ c ≠ '/' ∧ c ≠ '[' ∧ c ≠ ']' := by
  simpa [hostChar, and_assoc] using h

theorem isDigit_ne (h : c.isDigit = true) : isWhiteSpace c = false ∧ c ≠ ':' ∧ c ≠ '/' := by
  refine ⟨not_whiteSpace_of_isDigit h, ?_, ?_⟩ <;> rintro rfl <;> exact absurd h (by decide)

theorem Host.text_char (host : Host) (hc : c ∈ host.text) : c = ':' ∨ hostChar c = true := by
  cases host with
  | name text h => exact .inr (h.2 c hc)
  | ipv6 text h => exact h.2 c hc

theorem Host.written_char (host : Host) (hc : c ∈ host.written) :
    isWhiteSpace c = false ∧ c ≠ '/' := by
  have htext (hc : c ∈ host.text) : isWhiteSpace c = false ∧ c ≠ '/' := by
    rcases host.text_char hc with rfl | h
    · decide
    · exact ⟨(hostChar_ne h).1, (hostChar_ne h).2.2.1⟩
  cases host with
  | name text h => exact htext hc
  | ipv6 text h =>
    rcases List.mem_append.mp hc with hc | hc
    · rcases List.mem_cons.mp hc with rfl | hc
      · decide
      · exact htext hc
    · rw [List.mem_singleton.mp hc]
      decide

theorem Host.written_ne_nil (host : Host) : host.written ≠ [] := by
  cases host with
  | name text h => exact h.1
  | ipv6 text h => exact List.cons_ne_nil _ _

theorem portText_char {port : Option (List Char)} (h : ∀ p ∈ port, IsPort p)
    (hc : c ∈ portText port) : isWhiteSpace c = false ∧ c ≠ '/' := by
  cases port with
  | none => cases hc
  | some p =>
    rcases List.mem_cons.mp hc with rfl | hc
    · decide
    · have hdigit := isDigit_ne ((h p rfl).2 c hc)
      exact ⟨hdigit.1, hdigit.2.2⟩

theorem formatUrlHost_text (host : Host) : formatUrlHost host.text = host.written := by
  cases host with
  | name text h =>
    refine if_neg fun hboth => ?_
    simp only [Bool.and_eq_true, decide_eq_true_eq] at hboth
    exact (hostChar_ne (h.2 ':' hboth.1)).2.1 rfl
  | ipv6 text h =>
    refine if_pos ?_
    have hfirst : startsWith text "[" = false := by
      cases text with
      | nil => rfl
      | cons c text =>
        have hc : c ≠ '[' := by
          rcases h.2 c List.mem_cons_self with rfl | hc
          · decide
          · exact (hostChar_ne hc).2.2.2.1
        simpa [startsWith, List.isPrefixOf] using Ne.symm hc
    simp only [Host.text, h.1, hfirst, decide_true, Bool.not_false, Bool.and_self]

theorem trimEnd_slashes (h : ∀ c ∈ s.getLast?, c ≠ '/') (n : ℕ) :
    trimEnd (· = '/') (s ++ List.replicate n '/') = s := by
  have hall : ∀ c ∈ List.replicate n '/', decide (c = '/') = true :=
    fun c hc => decide_eq_true (List.eq_of_mem_replicate hc)
  have hfirst : ∀ c ∈ s.reverse.head?, decide (c = '/') = false := by
    rw [List.head?_reverse]
    exact fun c hc => decide_eq_false (h c hc)
  rw [trimEnd, List.reverse_append, List.reverse_replicate, List.dropWhile_append_of_pos hall,
    dropWhile_eq_self hfirst, List.reverse_reverse]

/-- What stands behind the scheme. -/
theorem strip_scheme (scheme : Scheme) (rest : List Char) :
    (stripPrefix (scheme.text ++ "://".toList ++ rest) "https://").or
      (stripPrefix (scheme.text ++ "://".toList ++ rest) "http://") = some rest := by
  cases scheme <;> rfl

theorem startsWith_scheme (scheme : Scheme) (rest : List Char) :
    startsWith (scheme.text ++ "://".toList ++ rest) "https://" = decide (scheme = .https) := by
  cases scheme <;> rfl

theorem space_scheme {scheme : Scheme} (hc : c ∈ scheme.text ++ "://".toList) :
    isWhiteSpace c = false := by
  have hall : ∀ scheme : Scheme, (scheme.text ++ "://".toList).all (fun c => !isWhiteSpace c) = true := by
    intro scheme
    cases scheme <;> decide
  simpa using List.all_eq_true.mp (hall scheme) c hc

theorem cut_body {scheme : Scheme} {rest : List Char} (hne : rest ≠ [])
    (hrest : ∀ c ∈ rest, isWhiteSpace c = false ∧ c ≠ '/') (n : ℕ) :
    trimEnd (· = '/') (trim (scheme.text ++ "://".toList ++ rest ++ List.replicate n '/')) =
      scheme.text ++ "://".toList ++ rest := by
  have hspace : ∀ c ∈ scheme.text ++ "://".toList ++ rest ++ List.replicate n '/',
      isWhiteSpace c = false := by
    intro c hc
    rcases List.mem_append.mp hc with hc | hc
    · rcases List.mem_append.mp hc with hc | hc
      · exact space_scheme hc
      · exact (hrest c hc).1
    · rw [List.eq_of_mem_replicate hc]
      decide
  rw [trim_eq_self (fun c hc => hspace c (List.mem_of_mem_head? hc))
    (fun c hc => hspace c (List.mem_of_getLast? hc))]
  refine trimEnd_slashes (fun c hc => ?_) n
  rw [List.getLast?_append_of_ne_nil _ hne] at hc
  exact (hrest c (List.mem_of_getLast? hc)).2

theorem rest_char {port : Option (List Char)} (h : ∀ p ∈ port, IsPort p)
    (hc : c ∈ host.written ++ portText port) : isWhiteSpace c = false ∧ c ≠ '/' := by
  rcases List.mem_append.mp hc with hc | hc
  · exact host.written_char hc
  · exact portText_char h hc

theorem rest_ne_nil (host : Host) (text : List Char) : host.written ++ text ≠ [] :=
  List.append_ne_nil_of_left_ne_nil host.written_ne_nil _

/-- The text behind the last colon takes the place of the port. -/
theorem rewrite_template (t : Template) (host : Host) : rewritePeerHost t.url host.text =
    (rsplitOnce (t.host.written ++ portText t.port) ':').bind (fun parts =>
      if parts.2.isEmpty then none
      else some (t.scheme.text ++ "://".toList ++ (host.written ++ ':' :: parts.2))) := by
  have hcut : trimEnd (· = '/') (trim t.url) = t.body :=
    cut_body (rest_ne_nil _ _) (fun c => rest_char t.number) t.slashes
  have hscheme : (if startsWith t.body "https://" then "https" else "http").toList = t.scheme.text := by
    rw [Template.body, startsWith_scheme]
    cases t.scheme <;> rfl
  unfold rewritePeerHost
  dsimp only
  rw [hcut, hscheme, formatUrlHost_text, Template.body, strip_scheme]
  change ((rsplitOnce _ _).bind fun parts => _) = _
  refine congrArg _ (funext fun parts => ?_)
  split
  · rfl
  · refine congrArg some ?_
    rw [List.append_assoc (t.scheme.text ++ "://".toList)]

/-- A URL with a port gives its host back. -/
theorem peerUrlHost_written {scheme : Scheme} {port : List Char} (h : IsPort port) :
    peerUrlHost (scheme.text ++ "://".toList ++ (host.written ++ ':' :: port)) = some host.text := by
  have hnumber : ∀ p ∈ some port, IsPort p := fun p hp => Option.some.inj hp ▸ h
  have hcut := @cut_body scheme _ (rest_ne_nil host (portText (some port)))
    (fun c => rest_char hnumber) 0
  have hslash : ∀ c ∈ host.written ++ ':' :: port, decide (c ≠ '/') = true :=
    fun c hc => decide_eq_true (rest_char hnumber hc).2
  rw [List.replicate_zero, List.append_nil] at hcut
  have hcut' : trimEnd (· = '/') (trim (scheme.text ++ "://".toList ++ (host.written ++ ':' :: port))) =
      scheme.text ++ "://".toList ++ (host.written ++ ':' :: port) := hcut
  have htake : (host.written ++ ':' :: port).takeWhile (· ≠ '/') = host.written ++ ':' :: port :=
    List.takeWhile_eq_self_iff.mpr hslash
  unfold peerUrlHost
  dsimp only
  rw [hcut', strip_scheme]
  simp only [Option.bind_eq_bind, Option.bind_some]
  rw [htake]
  have hcolon : ':' ∉ port := fun hc => (isDigit_ne (h.2 ':' hc)).2.1 rfl
  cases host with
  | ipv6 text htext =>
    have hopen : ∀ c ∈ text, decide (c ≠ ']') = true := by
      intro c hc
      rcases htext.2 c hc with rfl | hc
      · decide
      · exact decide_eq_true (hostChar_ne hc).2.2.2.2
    have hclose : (text ++ [']'] ++ ':' :: port).takeWhile (· ≠ ']') = text := by
      rw [List.append_assoc, List.takeWhile_append_of_pos hopen]
      exact List.append_nil _
    exact congrArg some hclose
  | name text htext =>
    obtain ⟨hne, hall⟩ := htext
    cases text with
    | nil => exact absurd rfl hne
    | cons c text =>
      have hc := hostChar_ne (hall c List.mem_cons_self)
      have hsplit : rsplitOnce (Host.written (.name (c :: text) ⟨hne, hall⟩) ++ ':' :: port) ':' =
          some (c :: text, port) := rsplitOnce_append (c :: text) hcolon
      split
      · rename_i rest heq
        exact absurd (List.cons.inj heq).1 hc.2.2.2.1
      · have hdigits : port.all Char.isDigit = true := List.all_eq_true.mpr h.2
        rw [hsplit]
        dsimp only
        rw [hdigits]
        rfl

/-- Behind the last colon of an IPv6 host in brackets there is a bracket at least. -/
theorem rsplitOnce_bare {text : List Char} (h : ':' ∈ text) : ∃ parts,
    rsplitOnce ('[' :: text ++ [']']) ':' = some parts ∧ parts.2.isEmpty = false := by
  have hin : ':' ∈ '[' :: text ++ [']'] := List.mem_append_left _ (List.mem_cons_of_mem _ h)
  refine ⟨_, if_pos hin, ?_⟩
  dsimp only
  rw [List.reverse_append, List.reverse_singleton, List.singleton_append,
    List.takeWhile_cons_of_pos (by decide)]
  simp

theorem rewrite_healed_iff (t : Template) (host : Host) :
    (∀ u, rewritePeerHost t.url host.text = some u → Healed t host u) ↔ ¬t.Bare := by
  rw [rewrite_template]
  cases hport : t.port with
  | some port =>
    have hnumber := t.number port hport
    have hcolon : ':' ∉ port := fun hc => (isDigit_ne (hnumber.2 ':' hc)).2.1 rfl
    have hsplit : rsplitOnce (t.host.written ++ portText (some port)) ':' =
        some (t.host.written, port) := rsplitOnce_append _ hcolon
    rw [hsplit, Option.bind_some, List.isEmpty_eq_false_iff.mpr hnumber.1,
      if_neg Bool.false_ne_true]
    refine ⟨fun _ hbare => ?_, fun _ u hu => ?_⟩
    · have hnone := hbare.1
      rw [hport] at hnone
      cases hnone
    · obtain rfl := Option.some.inj hu
      exact ⟨peerUrlHost_written hnumber, port, hport, hnumber, rfl⟩
  | none =>
    rw [portText, List.append_nil]
    cases hhost : t.host with
    | name text h =>
      have hcolon : ':' ∉ text := fun hc => (hostChar_ne (h.2 ':' hc)).2.1 rfl
      have hsplit : rsplitOnce (Host.name text h).written ':' = none := rsplitOnce_of_notMem hcolon
      rw [hsplit]
      refine ⟨fun _ hbare => ?_, fun _ u hu => nomatch hu⟩
      obtain ⟨-, other, hother, hip⟩ := hbare
      rw [hhost] at hip
      cases hip
    | ipv6 text h =>
      obtain ⟨parts, hsplit, hne⟩ := rsplitOnce_bare h.1
      have hsplit' : rsplitOnce (Host.ipv6 text h).written ':' = some parts := hsplit
      rw [hsplit', Option.bind_some, hne, if_neg Bool.false_ne_true]
      refine ⟨fun hall _ => ?_, fun hbare => (hbare ⟨hport, text, h, hhost⟩).elim⟩
      obtain ⟨-, port, hsome, -⟩ := hall _ rfl
      rw [hport] at hsome
      cases hsome

/-! ### Healing twice -/

theorem startsWith_iff {text : String} : startsWith s text = true ↔ text.toList <+: s :=
  List.isPrefixOf_iff_prefix

/-- A rewritten URL has the scheme of its template. -/
theorem https_of_rewrite {selfUrl host next : List Char}
    (hself : startsWith selfUrl "https://" = true)
    (h : rewritePeerHost selfUrl host = some next) : startsWith next "http://" = false := by
  have hcut : trimEnd (· = '/') (trim selfUrl) <+: selfUrl := by
    have hfirst : ∀ c ∈ selfUrl.head?, isWhiteSpace c = false := by
      obtain ⟨rest, rfl⟩ := startsWith_iff.mp hself
      intro c hc
      obtain rfl : 'h' = c := Option.some.inj hc
      rfl
    rw [trim, dropWhile_eq_self hfirst]
    exact (prefix_trimEnd _ _).trans (prefix_trimEnd _ _)
  have hscheme : startsWith (trimEnd (· = '/') (trim selfUrl)) "http://" = false := by
    rw [Bool.eq_false_iff]
    intro hhttp
    have hboth := (startsWith_iff.mp hhttp).trans hcut
    obtain ⟨rest, rfl⟩ := startsWith_iff.mp hself
    obtain ⟨other, hother⟩ := hboth
    exact absurd hother (by simp)
  unfold rewritePeerHost at h
  dsimp only at h
  cases hhttps : startsWith (trimEnd (· = '/') (trim selfUrl)) "https://" with
  | false =>
    rw [stripPrefix, stripPrefix, hhttps, hscheme] at h
    cases h
  | true =>
    rw [hhttps] at h
    obtain ⟨rest, -, h⟩ := Option.bind_eq_some_iff.mp h
    obtain ⟨parts, -, h⟩ := Option.bind_eq_some_iff.mp h
    split at h
    · cases h
    · obtain rfl := Option.some.inj h
      rfl

end Pertisk.PeerUrl

namespace Pertisk.Cluster
open Lib PeerUrl

variable (c : Cluster) (address : NodeId → Option String)

/-- The URL of a member comes over plain HTTP and is not taken for a loopback one, but with this
node's scheme and port it is; and then the member's address makes it yet another. -/
def Flips (m : Member) : Prop :=
  let selfUrl := c.selfRecord.peerUrl.toList
  let url := m.record.peerUrl.toList
  m.id ≠ c.selfId ∧ isLoopbackPeerUrl selfUrl = false ∧ startsWith selfUrl "https://" = true ∧
    startsWith url "http://" = true ∧ isLoopbackPeerUrl url = false ∧
    ∃ next, (peerUrlHost url).bind (rewritePeerHost selfUrl) = some next ∧
      isLoopbackPeerUrl next = true ∧
      ∃ again, ((address m.id).map String.toList).bind (rewritePeerHost selfUrl) = some again ∧
        again ≠ next

variable {c address} {m : Member}

variable (c address) in
/-- The URL that takes the place of another member's. -/
def healedTo (id : NodeId) (url : List Char) : Option (List Char) :=
  let selfUrl := c.selfRecord.peerUrl.toList
  if isLoopbackPeerUrl url then ((address id).map String.toList).bind (rewritePeerHost selfUrl)
  else if startsWith selfUrl "https://" && startsWith url "http://" then
    (peerUrlHost url).bind (rewritePeerHost selfUrl)
  else none

theorem healedUrl_eq : c.healedUrl address m =
    if m.id = c.selfId then m.record.peerUrl
    else ((c.healedTo address m.id m.record.peerUrl.toList).map String.ofList).getD
      m.record.peerUrl := by
  unfold healedUrl healedTo
  dsimp only
  by_cases hid : m.id = c.selfId
  · simp only [hid, decide_true, Bool.true_or, if_true]
  · cases hloop : isLoopbackPeerUrl m.record.peerUrl.toList with
    | true =>
      simp only [hid, decide_false, Bool.not_true, Bool.false_and, Bool.or_false,
        Bool.false_eq_true, if_false, if_true]
      cases ((address m.id).map String.toList).bind (rewritePeerHost c.selfRecord.peerUrl.toList) <;>
        rfl
    | false =>
      cases hhttp : startsWith c.selfRecord.peerUrl.toList "https://" &&
          startsWith m.record.peerUrl.toList "http://" with
      | false => simp [hid]
      | true =>
        simp only [hid, decide_false, Bool.not_false, Bool.and_true, Bool.not_true, Bool.and_false,
          Bool.or_false, Bool.false_eq_true, if_false, if_true]
        cases (peerUrlHost m.record.peerUrl.toList).bind
          (rewritePeerHost c.selfRecord.peerUrl.toList) <;> rfl

theorem selfId_heal : (c.healRemotePeerUrls address).selfId = c.selfId := by
  unfold healRemotePeerUrls
  split <;> rfl

theorem heal_of_loopback (h : isLoopbackPeerUrl c.selfRecord.peerUrl.toList = true) :
    c.healRemotePeerUrls address = c := if_pos h

theorem heal_eq (c : Cluster) : c.healRemotePeerUrls address =
    { c with members := (c.healRemotePeerUrls address).members } := by
  unfold healRemotePeerUrls
  split <;> rfl

theorem rows_heal (h : isLoopbackPeerUrl c.selfRecord.peerUrl.toList = false) :
    (c.healRemotePeerUrls address).members.rows = c.members.rows.map (c.healMember address) := by
  unfold healRemotePeerUrls
  rw [h, if_neg Bool.false_ne_true]
  rfl

theorem get_heal (h : isLoopbackPeerUrl c.selfRecord.peerUrl.toList = false) (id : NodeId) :
    (c.healRemotePeerUrls address).members.get id =
      (c.members.get id).map (c.healMember address) := by
  have hmap := Table.get_mapRows c.members (c.healMember address) (fun _ => rfl) id
  rw [← hmap, Table.get, rows_heal h]
  rfl

theorem selfRecord_heal : (c.healRemotePeerUrls address).selfRecord = c.selfRecord := by
  cases hself : isLoopbackPeerUrl c.selfRecord.peerUrl.toList with
  | true => rw [heal_of_loopback hself]
  | false =>
    unfold selfRecord
    rw [selfId_heal, get_heal hself]
    cases hget : c.members.get c.selfId with
    | none => rfl
    | some m =>
      have hid : m.id = c.selfId := Table.key_of_get hget
      have hurl : c.healedUrl address m = m.record.peerUrl := by
        rw [healedUrl_eq, if_pos hid]
      rw [Option.map_some, healMember, hurl]

/-- A rewritten URL is rewritten once more only when it is a loopback one. -/
theorem healedTo_again {id : NodeId} {url next : List Char}
    (h : c.healedTo address id url = some next) : c.healedTo address id next =
      if isLoopbackPeerUrl next then
        ((address id).map String.toList).bind (rewritePeerHost c.selfRecord.peerUrl.toList)
      else none := by
  have hhttp : (startsWith c.selfRecord.peerUrl.toList "https://" && startsWith next "http://") =
      false := by
    cases hself : startsWith c.selfRecord.peerUrl.toList "https://" with
    | false => rfl
    | true =>
      have hrewrite : ∃ host, rewritePeerHost c.selfRecord.peerUrl.toList host = some next := by
        unfold healedTo at h
        dsimp only at h
        split at h
        · obtain ⟨host, -, hnext⟩ := Option.bind_eq_some_iff.mp h
          exact ⟨host, hnext⟩
        · split at h
          · obtain ⟨host, -, hnext⟩ := Option.bind_eq_some_iff.mp h
            exact ⟨host, hnext⟩
          · cases h
      obtain ⟨host, hnext⟩ := hrewrite
      rw [https_of_rewrite hself hnext]
      rfl
  unfold healedTo
  dsimp only
  rw [hhttp, if_neg Bool.false_ne_true]

theorem healedTo_http {id : NodeId} {url : List Char}
    (hhttps : startsWith c.selfRecord.peerUrl.toList "https://" = true)
    (hhttp : startsWith url "http://" = true) (hloop : isLoopbackPeerUrl url = false) :
    c.healedTo address id url =
      (peerUrlHost url).bind (rewritePeerHost c.selfRecord.peerUrl.toList) := by
  unfold healedTo
  dsimp only
  rw [hloop, hhttps, hhttp, if_neg Bool.false_ne_true]
  rfl

theorem http_of_healedTo {id : NodeId} {url next : List Char} (hloop : isLoopbackPeerUrl url = false)
    (h : c.healedTo address id url = some next) :
    startsWith c.selfRecord.peerUrl.toList "https://" = true ∧ startsWith url "http://" = true := by
  unfold healedTo at h
  dsimp only at h
  rw [hloop, if_neg Bool.false_ne_true] at h
  split at h
  · rename_i hboth
    exact Bool.and_eq_true_iff.mp hboth
  · cases h

theorem healedUrl_again (hself : isLoopbackPeerUrl c.selfRecord.peerUrl.toList = false) :
    c.healedUrl address (c.healMember address m) = c.healedUrl address m ↔
      ¬c.Flips address m := by
  have hid : (c.healMember address m).id = m.id := rfl
  have hurl : (c.healMember address m).record.peerUrl = c.healedUrl address m := rfl
  rw [healedUrl_eq, hid, hurl]
  by_cases hme : m.id = c.selfId
  · rw [if_pos hme]
    exact ⟨fun _ hflips => hflips.1 hme, fun _ => rfl⟩
  rw [if_neg hme, healedUrl_eq, if_neg hme]
  cases hto : c.healedTo address m.id m.record.peerUrl.toList with
  | none =>
    rw [Option.map_none, Option.getD_none, hto]
    refine ⟨fun _ hflips => ?_, fun _ => rfl⟩
    obtain ⟨-, -, hhttps, hhttp, hloop, next, hnext, -⟩ := hflips
    unfold healedTo at hto
    dsimp only at hto
    rw [hloop, hhttps, hhttp, hnext] at hto
    cases hto
  | some next =>
    rw [Option.map_some, Option.getD_some, String.toList_ofList, healedTo_again hto]
    cases hnext : isLoopbackPeerUrl next with
    | false =>
      refine ⟨fun _ hflips => ?_, fun _ => rfl⟩
      obtain ⟨-, -, hhttps, hhttp, hloop, other, hother, hlooped, -⟩ := hflips
      rw [healedTo_http hhttps hhttp hloop, hother] at hto
      rw [Option.some.inj hto, hnext] at hlooped
      cases hlooped
    | true =>
      rw [if_pos rfl]
      cases hagain : ((address m.id).map String.toList).bind
          (rewritePeerHost c.selfRecord.peerUrl.toList) with
      | none =>
        refine ⟨fun _ hflips => ?_, fun _ => rfl⟩
        obtain ⟨-, -, -, -, -, -, -, -, again, hsome, -⟩ := hflips
        rw [hagain] at hsome
        cases hsome
      | some again =>
        rw [Option.map_some, Option.getD_some, String.ofList_inj]
        cases hloop : isLoopbackPeerUrl m.record.peerUrl.toList with
        | true =>
          have hsame : again = next := by
            unfold healedTo at hto
            dsimp only at hto
            rw [hloop, if_pos rfl, hagain] at hto
            exact Option.some.inj hto
          refine ⟨fun _ hflips => ?_, fun _ => hsame⟩
          obtain ⟨-, -, -, -, hno, -⟩ := hflips
          rw [hloop] at hno
          cases hno
        | false =>
          obtain ⟨hhttps, hhttp⟩ := http_of_healedTo hloop hto
          have hhost := hto
          rw [healedTo_http hhttps hhttp hloop] at hhost
          constructor
          · rintro hsame ⟨-, -, -, -, -, other, hother, -, third, hthird, hne⟩
            rw [hhost] at hother
            rw [hagain] at hthird
            exact hne (by rw [← Option.some.inj hthird, ← Option.some.inj hother, hsame])
          · intro hstays
            by_contra hne
            exact hstays ⟨hme, hself, hhttps, hhttp, hloop, next, hhost, hnext, again, hagain, hne⟩

/-- A second healing changes nothing when no member's URL flips. -/
theorem heal_heal_iff : (c.healRemotePeerUrls address).healRemotePeerUrls address =
    c.healRemotePeerUrls address ↔ ∀ m ∈ c.members.rows, ¬c.Flips address m := by
  cases hself : isLoopbackPeerUrl c.selfRecord.peerUrl.toList with
  | true =>
    rw [heal_of_loopback hself, heal_of_loopback hself]
    refine ⟨fun _ m _ hflips => ?_, fun _ => rfl⟩
    have hno := hflips.2.1
    rw [hself] at hno
    cases hno
  | false =>
    have hself' : isLoopbackPeerUrl (c.healRemotePeerUrls address).selfRecord.peerUrl.toList = false := by
      rw [selfRecord_heal]
      exact hself
    have hurls (m : Member) : (c.healRemotePeerUrls address).healedUrl address m =
        c.healedUrl address m := by
      unfold healedUrl
      rw [selfRecord_heal, selfId_heal]
    have hmember (m : Member) : (c.healRemotePeerUrls address).healMember address
        (c.healMember address m) = c.healMember address m ↔ ¬c.Flips address m := by
      rw [← healedUrl_again hself, ← hurls (c.healMember address m)]
      refine ⟨fun h => congrArg (fun m => m.record.peerUrl) h, fun h => ?_⟩
      rw [healMember, h]
      rfl
    have hrows := @rows_heal (c.healRemotePeerUrls address) address hself'
    rw [rows_heal hself, List.map_map] at hrows
    constructor
    · intro hsame m hm
      rw [hsame, rows_heal hself] at hrows
      exact (hmember m).mp (List.map_inj_left.mp hrows m hm).symm
    · intro hall
      have hlist : ((c.healRemotePeerUrls address).healRemotePeerUrls address).members.rows =
          (c.healRemotePeerUrls address).members.rows := by
        rw [hrows, rows_heal hself]
        exact List.map_congr_left fun m hm => (hmember m).mpr (hall m hm)
      have hmembers : ((c.healRemotePeerUrls address).healRemotePeerUrls address).members =
          (c.healRemotePeerUrls address).members :=
        Table.ext_get fun id => by rw [Table.get, hlist, Table.get]
      rw [heal_eq (c.healRemotePeerUrls address), hmembers]

/-- A rewritten URL has the host that was observed and the template's scheme and port, but for a
template with a bare IPv6 host; and healing is done at once, but for members whose URL flips. -/
theorem healing_iff (t : Template) (host : Host) (c : Cluster)
    (address : NodeId → Option String) :
    ((∀ u, rewritePeerHost t.url host.text = some u → Healed t host u) ↔ ¬t.Bare) ∧
      ((c.healRemotePeerUrls address).healRemotePeerUrls address = c.healRemotePeerUrls address ↔
        ∀ m ∈ c.members.rows, ¬c.Flips address m) :=
  ⟨rewrite_healed_iff t host, heal_heal_iff⟩

def bareTemplate : Template where
  scheme := .https
  host := .ipv6 "fe80::1".toList ⟨by decide, forall_of_all (by decide)⟩
  port := none
  number := nofun
  slashes := 0

def lanHost : Host := .name "10.0.0.9".toList ⟨by decide, forall_of_all (by decide)⟩

/-- A part of the address is taken for the port. -/
theorem bare_template : rewritePeerHost bareTemplate.url lanHost.text =
      some "https://10.0.0.9:1]".toList ∧
    ¬Healed bareTemplate lanHost "https://10.0.0.9:1]".toList := by
  refine ⟨by decide, fun hhealed => ?_⟩
  obtain ⟨-, port, hport, -⟩ := hhealed
  cases hport

end Pertisk.Cluster
