import Sora.Control.Metadata
import Sora.Control.Book

/-!
# What the states of a subscription show

A state has texts that the provider chose.  They come from `parseInfo`, are stored with the record
and leave the core in messages whose texts have to be UTF-8.  `stateLocked` copies them, but for a
page that is the stored link itself: whoever has the link can use the subscription.
-/

namespace Sora.Control

open Sora.Lib List Option Json

/-! ## Texts that can be stored and sent -/

theorem valid_iff {s : Bytes} : valid s = true ↔ Json.Whole s :=
  ⟨whole_of_valid, Json.Whole.valid⟩

/-- `cleanText` replaces what is no character. -/
theorem valid_cleanText (s : Bytes) (limit : Nat) (multiline : Bool) :
    valid (cleanText s limit multiline) = true := by
  refine valid_iff.mpr (Json.Whole.trimSpace (whole_flatMap fun c inside => ?_))
  have good := good_chunksFrom _ _ c (mem_of_mem_filter (mem_of_mem_take inside))
  cases c with
  | stray b => exact whole_of_valid (s := replacement) (by decide)
  | ascii b => exact whole_of_low (forall_mem_singleton.mpr good)
  | char bytes =>
    exact ⟨[.char bytes], by simpa [Json.Chunk.Clean] using good, by simp [Json.Chunk.fixed]⟩

/-- The link that `cleanURL` prints. -/
def takenLink (v : Bytes) : Option Url.URL :=
  if trimSpace v = [] ∨ maxURLBytes < (trimSpace v).length then none
  else
    (Url.parse (trimSpace v)).filter fun u =>
      (u.scheme = ascii "https" ∨ u.scheme = ascii "http") ∧ u.host ≠ [] ∨ u.scheme = ascii "tg"

theorem cleanURL_eq (v : Bytes) : cleanURL v = ((takenLink v).map Url.URL.string).getD [] := by
  simp only [cleanURL, takenLink]
  split
  · rfl
  · cases Url.parse (trimSpace v) with
    | none => rfl
    | some u =>
      have other : ascii "tg" ≠ ascii "https" ∧ ascii "tg" ≠ ascii "http" := by decide
      simp only [Option.filter]
      split_ifs <;> simp_all

/-- A link is printed with the bytes of its query and of its opaque part. -/
def PlainLink (v : Bytes) : Prop :=
  ∀ u, takenLink v = some u → Json.valid u.opaqued = true ∧ Json.valid u.rawQuery = true

theorem valid_cleanURL {v : Bytes} : valid (cleanURL v) = true ↔ PlainLink v := by
  rw [cleanURL_eq]
  cases taken : takenLink v with
  | none => exact iff_of_true rfl fun u same => nomatch taken.symm.trans same
  | some u =>
    have scheme : ∀ c ∈ u.scheme, c < 0x80 := by
      rw [takenLink] at taken
      split at taken
      · cases taken
      · have known := of_decide_eq_true (filter_eq_some_iff.mp taken).2
        rcases known with ⟨same | same, -⟩ | same <;> rw [same] <;>
          exact Url.low_of_all rfl
    rw [map_some, getD_some, valid_iff, Url.whole_string scheme, ← valid_iff,
      ← valid_iff, PlainLink, taken]
    simp

/-- Every text of a state is UTF-8. -/
def SubscriptionState.utf8 (s : SubscriptionState) : Bool :=
  [s.id, s.name, s.userAgent, s.displayName, s.info.title, s.info.webPageURL, s.info.supportURL,
    s.info.announce].all Json.valid && s.outbounds.all OutboundSpec.valid &&
    s.lastError.all fun e => Json.valid e.key && Json.valid e.detail

/-- With the metadata in it, a record that is sound otherwise is written and read back, and its
states can be sent. -/
def Info.Harmless (i : Info) : Prop :=
  ∀ (core : Core) (retry : Bytes → Int → Nat → Int) (id : Bytes) (r : Record) (b : Book),
    (∀ raw, Json.valid (core.hostname raw) = true) → Json.valid id = true →
    r.utf8 = true → r.printable = true → (b.lists id).all OutboundSpec.valid = true →
    (∃ raw, marshalRecord core.time id { r with info := i } = some raw ∧
      decodeRecord core.time raw = some (id, { r with info := i })) ∧
      (b.state core retry id { r with info := i }).utf8 = true

theorem shownInfo_texts (core : Core) (r : Record) :
    (shownInfo core r).title = r.info.title ∧ (shownInfo core r).supportURL = r.info.supportURL ∧
      (shownInfo core r).announce = r.info.announce ∧
      ((shownInfo core r).webPageURL = r.info.webPageURL ∨ (shownInfo core r).webPageURL = []) := by
  rw [shownInfo]
  split
  · split <;> simp
  · simp

theorem harmless_iff {i : Info} : i.Harmless ↔ printable i.expire = true ∧
    [i.title, i.webPageURL, i.supportURL, i.announce].all valid = true := by
  constructor
  · intro harmless
    obtain ⟨⟨raw, written, -⟩, sent⟩ := harmless
      ⟨true, true, fun _ => .error ⟨.internal, []⟩, fun _ => [], plainTime, plainWire⟩
      (fun _ _ _ => 0) [] { url := [], created := 0 } (.loaded ∅) (fun _ => rfl) rfl (by decide)
      (by decide) rfl
    constructor
    · rw [marshalRecord] at written
      split at written
      · rename_i inside
        simpa using (all_eq_true.mp inside) i.expire (by simp)
      · cases written
    · simp only [SubscriptionState.utf8, Book.state, shownInfo] at sent
      simp_all
  · rintro ⟨expires, texts⟩ core retry id r b hosts name utf8 times lists
    obtain ⟨title, page, support, announce⟩ : _ ∧ _ ∧ _ ∧ _ := by simpa using texts
    have utf8' : ({ r with info := i } : Record).utf8 = true := by
      simp_all [Record.utf8]
    have times' : ({ r with info := i } : Record).printable = true := by
      simp_all [Record.printable]
    refine ⟨⟨_, if_pos times', decodeRecord_encodeRecord core.time name utf8' times'⟩, ?_⟩
    obtain ⟨title', support', announce', page'⟩ := shownInfo_texts core { r with info := i }
    have shown : valid (shownInfo core { r with info := i }).webPageURL = true := by
      rcases page' with same | none'
      · rwa [same]
      · rw [none']
        rfl
    have label : valid (displayName core id { r with info := i }) = true := by
      rw [displayName]
      split_ifs <;> simp_all [Record.utf8]
    simp_all [SubscriptionState.utf8, Book.state, Record.utf8]

/-- The value of a key: the header's, or else the body's. -/
def metadataValue (header : Bytes → Bytes) (body : Bytes) (key : String) : Bytes :=
  if trimSpace (header (ascii key)) ≠ [] then trimSpace (header (ascii key))
  else bodyHeaders body (ascii key)

/-- The expiry that a provider sets is one that JSON can write, or one that is ignored. -/
def PlainExpiry (usage : Bytes) : Prop :=
  (usageField usage (ascii "upload")).isSome ∨ (usageField usage (ascii "download")).isSome →
    ∀ seconds, usageField usage (ascii "expire") = some seconds →
      seconds < 253402300800 ∨ 2 ^ 40 ≤ seconds

theorem printable_expire {usage : Bytes} {info : Info} (fresh : info.expire = 0) :
    printable (parseUsage usage info).expire = true ↔ PlainExpiry usage := by
  have zero : printable 0 = true := by decide
  rw [parseUsage, PlainExpiry]
  simp only
  split
  · exact iff_of_true (by rw [fresh, zero]) fun some' => by simp_all
  · rename_i some'
    have given : (usageField usage (ascii "upload")).isSome ∨
        (usageField usage (ascii "download")).isSome := by
      simp only [isNone_iff_eq_none, not_and_or] at some'
      exact some'.imp isSome_iff_ne_none.mpr isSome_iff_ne_none.mpr
    rw [forall_prop_of_true given]
    cases usageField usage (ascii "expire") with
    | none => simp [zero]
    | some seconds =>
      simp only [getD_some, Option.some.injEq, forall_eq']
      split
      · rw [printable, Bool.and_eq_true, decide_eq_true_iff, decide_eq_true_iff, unixTime, day,
          hour,
          minute]
        omega
      · refine iff_of_true zero ?_
        omega

theorem parseUsage_texts (usage : Bytes) (info : Info) :
    (parseUsage usage info).title = info.title ∧
      (parseUsage usage info).webPageURL = info.webPageURL ∧
      (parseUsage usage info).supportURL = info.supportURL ∧
      (parseUsage usage info).announce = info.announce := by
  simp only [parseUsage]
  split <;> exact ⟨rfl, rfl, rfl, rfl⟩

/-- Without usage there is no expiry. -/
theorem plainExpiry_nil : PlainExpiry [] := by
  have none' : usageField [] (ascii "expire") = none := by decide
  exact fun _ seconds given => nomatch none'.symm.trans given

/-- The texts of the metadata, and the expiry. -/
theorem parseInfo_eq (filename : Bytes → Option Bytes) (header : Bytes → Bytes) (body : Bytes) :
    ∃ info : Info, info.expire = 0 ∧ valid info.title = true ∧
      valid info.announce = true ∧
      info.webPageURL = cleanURL (metadataValue header body "profile-web-page-url") ∧
      info.supportURL = cleanURL (metadataValue header body "support-url") ∧
      parseInfo filename header body =
        if metadataValue header body "subscription-userinfo" ≠ [] then
          parseUsage (metadataValue header body "subscription-userinfo") info
        else info := by
  have either {p : Prop} [Decidable p] (s t : Bytes) (limit : Nat) : valid
      (if p then cleanText s limit false else cleanText t limit false) = true := by
    split <;> exact valid_cleanText _ _ _
  refine ⟨⟨_, _, false, 0, 0, 0, 0, _, _, _⟩, rfl, ?_, ?_, ?_, ?_, rfl⟩
  all_goals dsimp only [metadataValue]
  · exact either _ _ _
  · exact valid_cleanText _ _ _

/-- An answer that sets one header. -/
def oneHeader (key : String) (value : Bytes) : Bytes → Bytes :=
  fun k => if k = ascii key then value else []

/-- The path and the query of a link: what follows its host. -/
def secretPart (link : Bytes) : Bytes :=
  ((link.dropWhile (· != 47)).drop 2).dropWhile fun c => c != 47 && c != 63

/-- The text contains the link, or a path and query that is more than a slash. -/
def Exposes (link text : Bytes) : Prop :=
  link <:+: text ∨ 1 < (secretPart link).length ∧ secretPart link <:+: text

instance (link text : Bytes) : Decidable (Exposes link text) := inferInstanceAs (Decidable (_ ∨ _))

/-- A text without slashes and question marks has nothing of a link but its host. -/
theorem not_exposes {link text : Bytes} (slash : 47 ∈ link)
    (plain : ∀ c ∈ text, c ≠ 47 ∧ c ≠ 63) : ¬ Exposes link text := by
  rintro (whole | ⟨long, part⟩)
  · exact (plain 47 (whole.subset slash)).1 rfl
  · obtain ⟨c, rest, same⟩ := exists_cons_of_length_pos (Nat.zero_lt_of_lt long)
    have first := head?_dropWhile_not (fun c : UInt8 => c != 47 && c != 63)
      ((link.dropWhile (· != 47)).drop 2)
    rw [show dropWhile _ _ = c :: rest from same] at first
    have unlike := plain c (part.subset (by rw [same]; exact mem_cons_self))
    simp [unlike.1, unlike.2] at first

def errorTexts (e : Option StoredError) : List Bytes := (e.map fun e => [e.key, e.detail]).getD []

/-- What a state says in the words of the provider, the user or a failure. -/
def SubscriptionState.texts (s : SubscriptionState) : List Bytes :=
  [s.info.title, s.info.webPageURL, s.info.supportURL, s.info.announce, s.displayName] ++
    errorTexts s.lastError

/-- Only a page that is the link is kept back: a state hides the link exactly when the other texts
of the record do not have it. -/
theorem state_hides_link_iff {core : Core} {retry : Bytes → Int → Nat → Int} {id : Bytes}
    {r : Record} {b : Book} (hex : isHex 16 id = true) (slash : 47 ∈ r.url)
    (host : ∀ c ∈ core.hostname r.url, c ≠ 47 ∧ c ≠ 63) :
    (∀ t ∈ (b.state core retry id r).texts, ¬ Exposes r.url t) ↔
      (∀ t ∈ [r.name, r.info.title, r.info.supportURL, r.info.announce] ++ errorTexts r.lastError,
        ¬ Exposes r.url t) ∧
      (Exposes r.url r.info.webPageURL → core.normalizedLink r.info.webPageURL = .ok r.url) := by
  have empty : ¬ Exposes r.url [] := not_exposes slash nofun
  have name : ¬ Exposes r.url id := not_exposes slash fun c inside => by
    have digit := all_eq_true.mp (Bool.and_eq_true_iff.mp hex).2 c inside
    constructor <;> rintro rfl <;> exact absurd digit (by decide)
  have label : ¬ Exposes r.url r.info.title →
      (¬ Exposes r.url (displayName core id r) ↔ ¬ Exposes r.url r.name) := by
    rw [displayName]
    split_ifs with given <;> simp_all [not_exposes slash host]
  have page : ¬ Exposes r.url (shownInfo core r).webPageURL ↔
      (Exposes r.url r.info.webPageURL → core.normalizedLink r.info.webPageURL = .ok r.url) := by
    rw [shownInfo]
    split
    · split <;> simp_all
    · simp_all
  obtain ⟨title, support, announce, -⟩ := shownInfo_texts core r
  simp only [SubscriptionState.texts, Book.state, title, support, announce, forall_mem_append,
    forall_mem_cons, page]
  constructor
  · rintro ⟨⟨titled, paged, supported, announced, labelled, -⟩, failed⟩
    exact ⟨⟨⟨(label titled).mp labelled, titled, supported, announced, nofun⟩, failed⟩, paged⟩
  · rintro ⟨⟨⟨named, titled, supported, announced, -⟩, failed⟩, paged⟩
    exact ⟨⟨titled, paged, supported, announced, (label titled).mpr named, nofun⟩, failed⟩

def bearerLink : Bytes := ascii "https://panel.example/sub?token=s3cret"

/-- A core that stores links as they are. -/
def listingCore : Core where
  secrets := true
  fetcher := true
  normalizedLink := .ok

/-- The state of a subscription whose provider has answered with one header. -/
def answeredState (key : String) (value : Bytes) : SubscriptionState :=
  (Book.loaded ∅).state listingCore (fun _ _ _ => 0) (ascii "0123456789abcdef")
    { url := bearerLink, created := 1
      info := parseInfo (fun _ => none) (oneHeader key value) [] }

/-- The support address can be the link, and the page can be the link with one more setting. -/
theorem link_exposed :
    (answeredState "support-url" bearerLink).info.supportURL = bearerLink ∧
      Exposes bearerLink (answeredState "profile-web-page-url"
        (bearerLink ++ ascii "&lang=en")).info.webPageURL := by
  decide

theorem link_hidden : (answeredState "profile-web-page-url" bearerLink).info.webPageURL = [] ∧
    ∀ t ∈ (answeredState "profile-web-page-url" bearerLink).texts, ¬ Exposes bearerLink t :=
  ⟨by decide, (state_hides_link_iff (by decide) (by decide) fun c inside => of_decide_eq_true
    (all_eq_true.mp (show (listingCore.hostname bearerLink).all (fun c =>
      decide (c ≠ 47 ∧ c ≠ 63)) = true by decide) c inside)).mpr (by decide)⟩

end Sora.Control
