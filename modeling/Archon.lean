import Archon.Properties.OneSeat
import Archon.Properties.InPlay
import Archon.Properties.Waitlist
import Archon.Properties.FinalsPhase
import Archon.Properties.CancelledRounds
import Archon.Properties.Disqualified
import Archon.Properties.Freshness
import Archon.Properties.Display
import Archon.Properties.FinalsWin
import Archon.Properties.RatingAgrees
import Archon.Properties.LegalConfig
import Archon.Properties.RosterUnique
import Archon.Properties.SyncCursor
import Archon.Properties.LegalSheets
import Archon.Properties.RestoredRounds
import Archon.Backend.OnlineRows
import Archon.Backend.TournamentRoutes
import Archon.Backend.Scenario
import Archon.Backend.ServerWrites
import Archon.Properties.OnlineFrame
import Archon.Properties.ServerOwned
import Archon.Properties.AppOwned
import Archon.Properties.Tombstones
import Archon.Properties.ResultsStale
import Archon.Properties.BufferedFlush
import Archon.Properties.DecksAlike
import Archon.Properties.DeckSlots
import Archon.Properties.DeckRaces
import Archon.Properties.DeckPublication
import Archon.Properties.Entitlements
import Archon.Backend.OAuthGuard
import Archon.Properties.OAuthLineage
import Archon.Properties.CancelledSeats
import Archon.Properties.RatingsComplete
import Archon.Properties.LeagueAgrees
import Archon.Properties.Appointments
import Archon.Properties.LocalSaves
import Archon.Properties.PlayingSeated
import Archon.Properties.RoundCap
import Archon.Properties.AllocatedOnce
import Archon.Properties.ClaimedOnce
import Archon.Properties.LinkActsOnce
import Archon.Properties.FieldsKept
import Archon.Properties.LinkAuthority
import Archon.Properties.SnapshotDelta
import Archon.Backend.OAuthConsents
import Archon.Properties.ConsentBinds
import Archon.Properties.RatingsFollow
import Archon.Properties.SkippedRecompute
import Archon.Properties.Reopened
import Archon.Properties.TossSettled
import Archon.Properties.LeagueNesting
import Archon.Properties.AvatarsFollow
import Archon.Properties.TwdaSettled
import Archon.Properties.ScoringLaws
import Archon.Properties.ShortLinks
import Archon.Seating.Reported
import Archon.Seating.Partition
import Archon.Properties.DrawnOnce
import Archon.Library.Ranking
import Archon.Properties.FinalRanking
import Archon.Seating.Stagger
import Archon.Seating.Relations
import Archon.Seating.TableCounts
import Archon.Seating.Minimum
import Archon.Properties.PredationExact
import Archon.Library.Preferred
import Archon.Engine.Cards
import Archon.Properties.CardLookup
import Archon.Library.Lines
import Archon.Engine.DeckComments
import Archon.Properties.CommentsStable
import Archon.Seating.TableCut
import Archon.Properties.LeagueRanking
import Archon.Properties.PromoConservation
import Archon.Properties.ArchondataFormed
import Archon.Properties.RejoinedRecord
import Archon.Properties.OnlineRetries
import Archon.Properties.LiftedDisqualification
import Archon.Properties.CalendarTwice
import Archon.Properties.ImportAgrees
import Archon.Properties.RingResults
import Archon.Properties.Rollbacks
import Archon.Properties.AppliedOnce
import Archon.Properties.SignalsAgree
import Archon.Properties.PublicStreams
import Archon.Properties.RoundClock
import Archon.Properties.RolesGrow
