import SettlementOS.Results.AuditLog
import SettlementOS.Results.Compensation
import SettlementOS.Results.Rest
import SettlementOS.Results.Tamper
import SettlementOS.Results.Escrow
import SettlementOS.Results.Fund
import SettlementOS.Results.Idempotency
import SettlementOS.Results.Stuck
import SettlementOS.Results.Carried
import SettlementOS.Results.Amounts
import SettlementOS.Results.Clearance
import SettlementOS.Results.Tenancy
import SettlementOS.Results.Decimals
import SettlementOS.Results.Arbitrage
import SettlementOS.Results.Rounding
import SettlementOS.Results.Settleable
import SettlementOS.Results.Dust
import SettlementOS.Results.Sanctions
import SettlementOS.Results.Accruals
import SettlementOS.Results.Recalls
import SettlementOS.Results.Allowances
import SettlementOS.Results.Fingerprint
import SettlementOS.Results.RateLimit
import SettlementOS.Results.Listings
import SettlementOS.Results.Reconciliation
import SettlementOS.Results.Parties
import SettlementOS.Results.Markdown
import SettlementOS.Results.Shares
import SettlementOS.Results.Records
import SettlementOS.Results.Books
import SettlementOS.Results.Progress
import SettlementOS.Results.Pool
import SettlementOS.Results.Admin
import SettlementOS.Results.Limits
import SettlementOS.Results.Creation
