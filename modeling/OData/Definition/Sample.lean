/-
A service definition to begin with.

* `Definition.sampleText` — four entity sets of a small catalog, with their records and the
  relationships between them.
-/

set_option relaxedAutoImplicit false
set_option autoImplicit false

namespace OData.Definition

/-- The lines of the sample. -/
def sampleLines : List String :=
  ["# odata4rs service definition",
    "version: \"1.0\"",
    "namespace: CatalogService",
    "description: Demo product catalog",
    "",
    "entity_sets:",
    "  Products:",
    "    fields:",
    "      - \x7b name: ID, type: string, key: true \x7d",
    "      - \x7b name: Name, type: string, max_length: 30 \x7d",
    "      - \x7b name: Description, type: string \x7d",
    "      - \x7b name: Price, type: decimal, precision: 9, scale: 2 \x7d",
    "      - \x7b name: Category_ID, type: string, ref: Categories \x7d",
    "      - \x7b name: Category, type: navigation \x7d",
    "      - \x7b name: Supplier_ID, type: string, ref: Suppliers \x7d",
    "      - \x7b name: Supplier, type: navigation \x7d",
    "    records:",
    "      - \x7b ID: \"1\", Name: \"Product A\", Description: \"Description A\"," ++
      " Price: 100.0, Category_ID: \"1\", Supplier_ID: \"1\" \x7d",
    "      - \x7b ID: \"2\", Name: \"Product B\", Description: \"Description B\"," ++
      " Price: 200.0, Category_ID: \"1\", Supplier_ID: \"2\" \x7d",
    "      - \x7b ID: \"3\", Name: \"Product C\", Description: \"Description C\"," ++
      " Price: 300.0, Category_ID: \"2\", Supplier_ID: \"1\" \x7d",
    "",
    "  Categories:",
    "    fields:",
    "      - \x7b name: ID, type: string, key: true \x7d",
    "      - \x7b name: Name, type: string, max_length: 111 \x7d",
    "      - \x7b name: Products, type: navigation \x7d",
    "    records:",
    "      - \x7b ID: \"1\", Name: \"Electronics\" \x7d",
    "      - \x7b ID: \"2\", Name: \"Books\" \x7d",
    "",
    "  Suppliers:",
    "    fields:",
    "      - \x7b name: ID, type: string, key: true \x7d",
    "      - \x7b name: Name, type: string \x7d",
    "      - \x7b name: Country, type: string \x7d",
    "      - \x7b name: Products, type: navigation \x7d",
    "    capabilities:",
    "      by_id: false",
    "    records:",
    "      - \x7b ID: \"1\", Name: \"Supplier A\", Country: \"USA\" \x7d",
    "      - \x7b ID: \"2\", Name: \"Supplier B\", Country: \"Canada\" \x7d",
    "",
    "  Customers:",
    "    fields:",
    "      - \x7b name: ID, type: string, key: true \x7d",
    "      - \x7b name: Name, type: string, not_null: true \x7d",
    "    capabilities:",
    "      collection: false",
    "      by_id: false",
    "",
    "relationships:",
    "  - \x7b from: Products, name: Category, target: Categories," ++
      " cardinality: one-to-one \x7d",
    "  - \x7b from: Products, name: Supplier, target: Suppliers, cardinality: one-to-one \x7d",
    "  - \x7b from: Categories, name: Products, target: Products," ++
      " cardinality: one-to-many \x7d",
    "  - \x7b from: Suppliers, name: Products, target: Products," ++
      " cardinality: one-to-many \x7d"]

/-- The text of a definition that shows all parts of one. -/
def sampleText : String := String.join (sampleLines.map (· ++ "\n"))

end OData.Definition
