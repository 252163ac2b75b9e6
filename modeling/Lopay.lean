import Lopay.Transactions.Table
import Lopay.Transactions.Machine
import Lopay.Transactions.Logic
import Lopay.Transactions.Soundness
import Lopay.Transactions.Local
import Lopay.Transactions.Alone
import Lopay.Money
import Lopay.Schema
import Lopay.World
import Lopay.Ledger.Defaults
import Lopay.Ledger.FirstPayments
import Lopay.Ledger.Installments
import Lopay.Ledger.Paystack
import Lopay.Ledger.Migrated
import Lopay.Enrollment.FirstPayment
import Lopay.Enrollment.Installment
import Lopay.Enrollment.Webhook
import Lopay.Invites.School
import Lopay.Invites.Parent
import Lopay.Books.Coherent
import Lopay.Books.Posting
import Lopay.Books.Preservation
import Lopay.Books.Session
import Lopay.Books.LedgerPosts
import Lopay.Books.PaystackPosts
import Lopay.Books.EnrollmentPosts
import Lopay.Books.InitiationPosts
import Lopay.Books.Jobs
import Lopay.Balances
import Lopay.Books.Credits
import Lopay.Transactions.Possible
import Lopay.Lifecycle
import Lopay.Books.Alone
import Lopay.Rejections
import Lopay.Defaults
import Lopay.Deliveries
import Lopay.Reopening
import Lopay.Tame.Invites
import Lopay.Agreement
import Lopay.Invites.Moves
import Lopay.Invites.Lifecycle
import Lopay.Invites.Tokens
import Lopay.Invites.Opening
import Lopay.Invites.Slots
import Lopay.Keys.Isolation
import Lopay.Invites.Bonds
import Lopay.Invites.Claims
import Lopay.Transactions.Plain
import Lopay.Settlement.Service
import Lopay.Settlement.Destinations
import Lopay.Schedule.Arrears
import Lopay.Schedule.Advertised
import Lopay.Schedule.View
import Lopay.Schedule.Rosters
import Lopay.Reports
import Lopay.CardSplit
import Lopay.Cheapest
import Lopay.Migrated.Figures
import Lopay.Transactions.Holding
import Lopay.Migrated.Keeping
import Lopay.Migrated.Bookings
import Lopay.Migrated.Amounts
import Lopay.Transactions.Follow
import Lopay.Disputed
import Lopay.Reversals
import Lopay.Transactions.Final
import Lopay.Transactions.Smooth
import Lopay.Corrections
import Lopay.Messages
import Lopay.Invites.Undoing
import Lopay.Breakdown
import Lopay.Revenue
import Lopay.Pii.Crypto
import Lopay.Pii.Writes
import Lopay.Users.Directory
import Lopay.Users.Index
import Lopay.Users.Accounts
import Lopay.Users.Removal
import Lopay.Schedule.Dates
import Lopay.Scheduler.LeaderLock
import Lopay.Documents.Paths
import Lopay.Documents.Receipts
import Lopay.Ip.Client
import Lopay.Ip.Spelling
import Lopay.Ip.Keys
import Lopay.Fees.Publishing
import Lopay.Fees.Phases
import Lopay.Transactions.Timeline
import Lopay.Fees.Coherence
import Lopay.Releases
import Lopay.RoundTrips
import Lopay.Sweep
import Lopay.Invites.Reminders
import Lopay.Escalations
import Lopay.Reconciles
import Lopay.DisputeOrder
import Lopay.AuditTrail
import Lopay.Reservations
import Lopay.Tenants
import Lopay.Openings
import Lopay.Encoding.Utf8
import Lopay.Encoding.Urlencoded
import Lopay.Links.ClaimUrl
import Lopay.Links.Issued
import Lopay.Links.Handoff
import Lopay.Outcomes
import Lopay.Notifications.Service
import Lopay.Notifications.Devices
import Lopay.Notifications.Announcements
import Lopay.Notifications.Lists
import Lopay.Notifications.Realtime
