import VaultWatch.Showcase.Types
import VaultWatch.Lib.Window

/-! The live feed (`dashboard-web/src/lib/hooks/useLiveFeed.ts`). A delivery is
dropped while the feed shows an item of its content; otherwise it is put at the
front under the next sequence number, and the feed is cut to sixty items.
React runs the updaters one after the other. -/
namespace VaultWatch.Showcase

open VaultWatch.Lib.Window

variable {V : Type}

structure FeedItem (V : Type) where
  item : StreamItem V
  key : String
  contentKey : String

/-- `feed` and `seq.current`. -/
structure LiveFeed (V : Type) where
  feed : List (FeedItem V) := []
  seq : ℕ := 0

/-- `stringify` is `JSON.stringify`. -/
def contentKeyFor (stringify : V → String) : StreamItem V → String
  | .alert a => "alert|" ++ a.transactionId ++ "|" ++ a.severity.value ++ "|" ++ a.title ++ "|" ++
    stringify a.detail
  | .event e => "event|" ++ e.transactionId ++ "|" ++ e.stage.value ++ "|" ++ e.label ++ "|" ++
    stringify e.detail

/-- The key of a feed item. -/
def reactKey (item : StreamItem V) (seq : ℕ) : String :=
  item.transactionId ++ "-" ++ toString seq

def pushItem (stringify : V → String) (s : LiveFeed V) (item : StreamItem V) : LiveFeed V :=
  let contentKey := contentKeyFor stringify item
  if s.feed.any (·.contentKey == contentKey) then s
  else
    let seq := s.seq + 1
    { seq, feed := ({ item, key := reactKey item seq, contentKey } :: s.feed).take 60 }

/-- The feed after a sequence of deliveries. -/
def deliver (stringify : V → String) (items : List (StreamItem V)) : LiveFeed V :=
  items.foldl (pushItem stringify) {}

/-- What a delivery inserts. -/
def insertion (stringify : V → String) (s : LiveFeed V) (item : StreamItem V) :
    Option (FeedItem V) :=
  if s.feed.any (·.contentKey == contentKeyFor stringify item) then none
  else some ⟨item, reactKey item (s.seq + 1), contentKeyFor stringify item⟩

/-- What deliveries insert, newest first. -/
def insertions (stringify : V → String) : LiveFeed V → List (StreamItem V) → List (FeedItem V)
  | _, [] => []
  | s, item :: items =>
    insertions stringify (pushItem stringify s item) items ++ (insertion stringify s item).toList

/-! ## Keys -/

theorem reactKey_seq {a b : StreamItem V} {m n : ℕ} (same : reactKey a m = reactKey b n) :
    m = n := by
  -- read from the back, the number ends at the first hyphen
  have back := congrArg (fun s => (s.toList.reverse.takeWhile (· ≠ '-')).reverse) same
  have digits : ∀ k : ℕ, ∀ c ∈ (Nat.toDigits 10 k).reverse, decide (c ≠ '-') = true := by
    intro k c mem
    have digit := Nat.isDigit_of_mem_toDigits (by decide) (by decide) (List.mem_reverse.mp mem)
    refine decide_eq_true fun hyphen => ?_
    rw [hyphen] at digit
    exact absurd digit (by decide)
  have read : ∀ (item : StreamItem V) (k : ℕ),
      (reactKey item k).toList.reverse.takeWhile (· ≠ '-') = (Nat.toDigits 10 k).reverse := by
    intro item k
    have hyphen : "-".toList.reverse = ['-'] := rfl
    simp only [reactKey, String.toList_append, List.reverse_append, hyphen,
      Nat.toString_eq_ofList_toDigits, String.toList_ofList]
    rw [List.takeWhile_append_of_pos (digits k)]
    simp
  simp only [read, List.reverse_reverse] at back
  have number := congrArg (Nat.ofDigitChars 10 · 0) back
  simpa using number

/-- The items of a log, newest first, are numbered from one. -/
def Numbered : List (FeedItem V) → Prop
  | [] => True
  | x :: log => x.key = reactKey x.item (log.length + 1) ∧ Numbered log

theorem Numbered.mem {log : List (FeedItem V)} (numbered : Numbered log) {x : FeedItem V}
    (mem : x ∈ log) : ∃ n ≤ log.length, x.key = reactKey x.item n := by
  induction log with
  | nil => cases mem
  | cons y log ih =>
    rcases List.mem_cons.mp mem with rfl | older
    · exact ⟨log.length + 1, Nat.le_refl _, numbered.1⟩
    · obtain ⟨n, bound, named⟩ := ih numbered.2 older
      exact ⟨n, Nat.le_succ_of_le bound, named⟩

theorem Numbered.nodup {log : List (FeedItem V)} (numbered : Numbered log) :
    (log.map (·.key)).Nodup := by
  induction log with
  | nil => exact .nil
  | cons x log ih =>
    refine List.nodup_cons.mpr ⟨fun mem => ?_, ih numbered.2⟩
    obtain ⟨y, older, same⟩ := List.mem_map.mp mem
    obtain ⟨n, bound, named⟩ := numbered.2.mem older
    have number := reactKey_seq ((named.symm.trans same).trans numbered.1)
    omega

/-! ## The feed and its log -/

/-- The feed is the front of what was inserted. -/
structure Shows (stringify : V → String) (s : LiveFeed V) (log : List (FeedItem V)) : Prop where
  feed : s.feed = log.take 60
  seq : s.seq = log.length
  spaced : Spaced FeedItem.contentKey 60 log
  numbered : Numbered log
  keyed : ∀ x ∈ log, x.contentKey = contentKeyFor stringify x.item

section
variable {stringify : V → String} {s : LiveFeed V} {log : List (FeedItem V)}

theorem mem_contentKeys {item : StreamItem V} :
    s.feed.any (·.contentKey == contentKeyFor stringify item) = true ↔
      contentKeyFor stringify item ∈ s.feed.map (·.contentKey) := by
  simp only [List.any_eq_true, beq_iff_eq, List.mem_map]

theorem pushItem_shown {item : StreamItem V}
    (shown : contentKeyFor stringify item ∈ s.feed.map (·.contentKey)) :
    pushItem stringify s item = s := by
  unfold pushItem
  rw [if_pos (mem_contentKeys.mpr shown)]

theorem Shows.pushItem (shows : Shows stringify s log) (item : StreamItem V) :
    Shows stringify (pushItem stringify s item) ((insertion stringify s item).toList ++ log) := by
  by_cases shown : s.feed.any (·.contentKey == contentKeyFor stringify item) = true
  · rw [pushItem_shown (mem_contentKeys.mp shown), insertion, if_pos shown]
    exact shows
  · have fresh := mt mem_contentKeys.mpr shown
    simp only [Showcase.pushItem, insertion, if_neg shown, Option.toList_some,
      List.singleton_append]
    refine ⟨?_, ?_, ⟨?_, shows.spaced⟩, ⟨?_, shows.numbered⟩, ?_⟩
    · rw [shows.feed]
      simp [List.take_take]
    · rw [shows.seq, List.length_cons]
    · rwa [← shows.feed]
    · rw [shows.seq]
    · exact List.forall_mem_cons.mpr ⟨rfl, shows.keyed⟩

theorem Shows.deliver (shows : Shows stringify s log) (items : List (StreamItem V)) :
    Shows stringify (items.foldl (Showcase.pushItem stringify) s)
      (insertions stringify s items ++ log) := by
  induction items generalizing s log with
  | nil => exact shows
  | cons item items ih =>
    have rest := ih (shows.pushItem item)
    rwa [← List.append_assoc] at rest

theorem shows_nil (stringify : V → String) : Shows stringify {} [] := ⟨rfl, rfl, trivial, trivial, by simp⟩

end

theorem shows_deliver (stringify : V → String) (items : List (StreamItem V)) :
    Shows stringify (deliver stringify items) (insertions stringify {} items) := by
  have shows := (shows_nil stringify).deliver items
  rwa [List.append_nil] at shows

/-- After any deliveries: the feed is the newest sixty insertions, at most sixty, no two
with one content key or one React key; what it shows can be delivered again without
effect; and an item is shown until sixty others, of other content, have been inserted. -/
theorem feed_deliver (stringify : V → String) (items : List (StreamItem V)) :
    let s := deliver stringify items
    let log := insertions stringify {} items
    s.feed.length ≤ 60 ∧ (s.feed.map (·.contentKey)).Nodup ∧ (s.feed.map (·.key)).Nodup ∧
    (∀ x ∈ s.feed, x.contentKey = contentKeyFor stringify x.item) ∧ s.feed = log.take 60 ∧
    (∀ x ∈ s.feed, ∀ item, contentKeyFor stringify item = contentKeyFor stringify x.item →
      (pushItem stringify s item).feed = s.feed) ∧
    ∀ later x earlier, log = later ++ x :: earlier → (x ∈ s.feed ↔ later.length < 60) ∧
      (60 ≤ later.length →
        ((later.drop (later.length - 60) ++ [x]).map (·.contentKey)).Nodup) := by
  intro s log
  have shows : Shows stringify s log := shows_deliver stringify items
  have keyed : ∀ x ∈ s.feed, x.contentKey = contentKeyFor stringify x.item := by
    intro x mem
    rw [shows.feed] at mem
    exact shows.keyed x (List.mem_of_mem_take mem)
  refine ⟨?_, ?_, ?_, keyed, shows.feed, ?_, ?_⟩
  · rw [shows.feed]
    exact List.length_take_le _ _
  · rw [shows.feed]
    exact shows.spaced.nodup_take
  · rw [shows.feed]
    exact shows.numbered.nodup.sublist ((List.take_sublist _ _).map _)
  · intro x mem item same
    rw [pushItem_shown]
    rw [same, ← keyed x mem]
    exact List.mem_map_of_mem mem
  · intro later x earlier split
    have distinct : (later ++ x :: earlier).Nodup := by
      rw [← split]
      exact shows.numbered.nodup.of_map
    have spaced := shows.spaced
    rw [split] at spaced
    refine ⟨?_, spaced.nodup_later⟩
    rw [shows.feed, split]
    exact mem_take_iff distinct

end VaultWatch.Showcase
